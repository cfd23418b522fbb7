import PassScheduler.CommandLine.FileTree
import PassScheduler.Main
import PassScheduler.Proofs.Graph.Reachability
import PassScheduler.Proofs.Graph.ClosedWalk
import PassScheduler.Proofs.Registry.Acceptance
import PassScheduler.Proofs.Registry.Configuration
import PassScheduler.Proofs.Schedule.Journal
import PassScheduler.Proofs.Schedule.Execution
import PassScheduler.Proofs.Schedule.Recursion
import PassScheduler.Proofs.Schedule.Course
import PassScheduler.Proofs.Registry.Standard
import PassScheduler.Proofs.Schedule.Prerequisites
import PassScheduler.Proofs.Schedule.Circularity
import PassScheduler.Proofs.Schedule.Freshness
import PassScheduler.Proofs.Schedule.Legality
import PassScheduler.Proofs.Schedule.Changes
import PassScheduler.Proofs.Program.Execution
import PassScheduler.Proofs.Transform.Effect
import PassScheduler.Proofs.Transform.ConstantFolding
import PassScheduler.Proofs.Transform.Simplification
import PassScheduler.Proofs.Analysis.Liveness
import PassScheduler.Proofs.Transform.DeadCodeElimination
import PassScheduler.Proofs.Transform.WellFormedness
import PassScheduler.Proofs.Transform.Potential
import PassScheduler.Proofs.Standard.Session
import PassScheduler.Proofs.Standard.Reporting
import PassScheduler.Proofs.Analysis.Verification
import PassScheduler.Proofs.Standard.Refinement
import PassScheduler.Proofs.Schedule.Recording
import PassScheduler.Proofs.Schedule.Replay
import PassScheduler.Proofs.Schedule.Worklist
import PassScheduler.Proofs.Schedule.Observation
import PassScheduler.Proofs.Schedule.Failure
import PassScheduler.Proofs.Standard.Trust
import PassScheduler.Proofs.Standard.Progress
import PassScheduler.Proofs.Standard.FixedPoint
import PassScheduler.Proofs.Source.Reading
import PassScheduler.Proofs.Source.Automaton
import PassScheduler.Proofs.Source.Recognition
import PassScheduler.Proofs.Source.Lexing
import PassScheduler.Proofs.Source.Tracing
import PassScheduler.Proofs.Source.Agreement
import PassScheduler.Proofs.Source.Parsing
import PassScheduler.Proofs.Source.Spelling
import PassScheduler.Proofs.Source.Writing
import PassScheduler.Proofs.Source.RoundTrip
import PassScheduler.Proofs.Standard.Outcome
import PassScheduler.Proofs.Standard.Failure
import PassScheduler.Proofs.Schedule.Simulation
import PassScheduler.Proofs.Standard.Anew
import PassScheduler.Proofs.Registry.Reordering
import PassScheduler.Proofs.Schedule.Reordering
import PassScheduler.Proofs.Schedule.Gating
import PassScheduler.Proofs.Schedule.Closure
import PassScheduler.Proofs.Schedule.Accumulation
import PassScheduler.Proofs.Pipeline.Driving
import PassScheduler.Proofs.Pipeline.Report
import PassScheduler.Proofs.Pipeline.Recompilation
import PassScheduler.Proofs.Source.LongestMatch
import PassScheduler.Proofs.Transform.Shape
import PassScheduler.Proofs.Standard.Shape
import PassScheduler.Proofs.Standard.NormalForm
import PassScheduler.Proofs.Schedule.Lockstep
import PassScheduler.Proofs.Standard.Independence
import PassScheduler.Proofs.Analysis.FirstViolation
import PassScheduler.Proofs.Source.Expectation
import PassScheduler.Proofs.Transform.DerivedConstants
import PassScheduler.Proofs.Standard.DerivedConstants
import PassScheduler.Proofs.Schedule.Conflict
import PassScheduler.Proofs.Graph.PostOrder
import PassScheduler.Proofs.Analysis.LiveValues
import PassScheduler.Proofs.Standard.DeadCode
import PassScheduler.Proofs.Registry.AnalysisCycle
import PassScheduler.Proofs.Schedule.Walk
import PassScheduler.Proofs.Schedule.Plan
import PassScheduler.Proofs.Registry.RequiredPasses
import PassScheduler.Proofs.Text.Position
import PassScheduler.Proofs.Source.Placement
import PassScheduler.Proofs.Schedule.Confinement
import PassScheduler.Proofs.Schedule.Instances
import PassScheduler.Pass.Roster
import PassScheduler.Proofs.Pipeline.Repetition
import PassScheduler.Proofs.Registry.Roster
import PassScheduler.Proofs.Registry.Drawing
import PassScheduler.Proofs.Registry.Fingerprint
import PassScheduler.Proofs.Graph.Dependents
import PassScheduler.Proofs.Schedule.Turns
import PassScheduler.Proofs.Json.Spelling
import PassScheduler.Proofs.Json.Layout
import PassScheduler.Proofs.Json.Value
import PassScheduler.Proofs.Pipeline.ConfigReading
import PassScheduler.Proofs.Pipeline.ConfigText
