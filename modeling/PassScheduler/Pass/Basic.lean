import PassScheduler.Pass.Descriptor

/-!
Contract: passes that can be run.

Owns: why a run fails, what the maker of a pass is told, and the interface of a pass.

Does not own: when a pass runs.
-/

namespace PassScheduler

/-- Why the run of a pass failed. -/
inductive PassError where
  | malformed (function message : String)
  | missingAnalysis (analysis : String)
  | internal (message : String)
deriving DecidableEq, Repr

def PassError.message : PassError → String
  | .malformed function message => "function '" ++ function ++ "': " ++ message
  | .missingAnalysis analysis => "analysis '" ++ analysis ++ "' has no cached result"
  | .internal message => message

/-- What the maker of a pass is told: the pass's name and the level at which it is to work. -/
structure Context where
  name : String
  level : Level
deriving DecidableEq, Repr

/-- Passes of type `Instance` that work on a world. A run answers whether it changed anything,
or why it failed; either way it leaves the pass and the world as it found or made them. -/
class Pass (Instance World : Type) where
  run : Instance → World → Except PassError Bool × Instance × World

end PassScheduler
