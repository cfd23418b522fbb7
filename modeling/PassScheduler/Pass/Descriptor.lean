/-!
Contract: what the scheduler knows of a pass before it runs.

Owns: levels, kinds and descriptors, and how a descriptor is put together.

Does not own: what the names in a descriptor refer to.
-/

namespace PassScheduler

/-- An optimisation level. A pass takes part from its own level on. -/
abbrev Level := UInt32

/-- An analysis computes a result that can be kept; a transformation changes the program. -/
inductive PassKind where
  | analysis
  | transformation
deriving DecidableEq, Repr

def PassKind.text : PassKind → String
  | .analysis => "analysis"
  | .transformation => "transformation"

/-- A pass by name, with the passes that must hold a valid result before it runs and those whose
results are stale once it has run, each in the order given. -/
structure Descriptor where
  name : String
  kind : PassKind
  minLevel : Level := 0
  requires : List String := []
  invalidates : List String := []
deriving DecidableEq, Repr

namespace Descriptor

def analysis (name : String) : Descriptor where
  name := name
  kind := .analysis

def transformation (name : String) : Descriptor where
  name := name
  kind := .transformation

def requiring (descriptor : Descriptor) (name : String) : Descriptor :=
  { descriptor with requires := descriptor.requires ++ [name] }

def invalidating (descriptor : Descriptor) (name : String) : Descriptor :=
  { descriptor with invalidates := descriptor.invalidates ++ [name] }

def fromLevel (descriptor : Descriptor) (level : Level) : Descriptor :=
  { descriptor with minLevel := level }

def ofKind (descriptor : Descriptor) (kind : PassKind) : Descriptor :=
  { descriptor with kind := kind }

def isAnalysis (descriptor : Descriptor) : Bool :=
  descriptor.kind = .analysis

/-- Whether the pass takes part at a level. -/
def isEnabledAt (descriptor : Descriptor) (level : Level) : Bool :=
  descriptor.minLevel ≤ level

end Descriptor

end PassScheduler
