import PassScheduler.Program.Function
import PassScheduler.Program.ResultTable

/-!
Contract: a program, which is a list of functions together with the results that analyses left
beside them.

Owns: the kinds of analysis result, their types, and the program.

Does not own: how a result is computed, or when it may be trusted. Two programs count as equal
when their functions are; the results beside them play no part in that.
-/

namespace PassScheduler

/-- The live values that were found for some functions, by function name. -/
structure LiveSets where
  sets : List (String × List ValueId)
deriving DecidableEq, Repr

namespace LiveSets

/-- The live values of a function. Of two functions of one name the later one counts. -/
def values? (live : LiveSets) (function : String) : Option (List ValueId) :=
  (live.sets.reverse.find? fun entry => entry.1 = function).map Prod.snd

/-- Whether a value is known to be live; of an unknown function no value is. -/
def isLive (live : LiveSets) (function : String) (value : ValueId) : Bool :=
  match live.values? function with
  | none => false
  | some values => values.contains value

end LiveSets

/-- The kinds of result that a program keeps. -/
inductive AnalysisKind where
  | verified
  | liveness
deriving DecidableEq, Repr

/-- What each kind of result holds. That a program is verified is all there is to know of it. -/
def AnalysisKind.Result : AnalysisKind → Type
  | .verified => Unit
  | .liveness => LiveSets

structure Program where
  functions : List Function
  results : ResultTable AnalysisKind AnalysisKind.Result

namespace Program

/-- A program on which no analysis has run. -/
def ofFunctions (functions : List Function) : Program where
  functions := functions
  results := .empty

/-- A copy has not been analysed. -/
def copy (program : Program) : Program :=
  ofFunctions program.functions

def instCount (program : Program) : Nat :=
  (program.functions.flatMap Function.insts).length

/-- The first function of that name. -/
def function? (program : Program) (name : String) : Option Function :=
  program.functions.find? fun function => function.name = name

/-- Whether the verified mark is present. -/
def isMarkedVerified (program : Program) : Bool :=
  (program.results.get? .verified).isSome

def liveSets? (program : Program) : Option LiveSets :=
  program.results.get? .liveness

end Program

end PassScheduler
