import PassScheduler.Pass.Registry
import PassScheduler.Program.ResultTable

/-!
Contract: registration of passes with an index of their names.

Beside the accepted passes a roster keeps a table from their names to their numbers, and the number
that the next pass will have, so that nothing is searched for.

Owns:
- rosters, and the call that registers a pass or refuses it;
- building a registry whose names are looked up in the index.

Does not own: the checks of a registry once all names are resolved.
-/

namespace PassScheduler

/-- Numbers of passes, given out in ascending order. -/
structure PassNumbers where
  next : PassId
deriving DecidableEq, Repr

namespace PassNumbers

def start : PassNumbers :=
  ⟨0⟩

/-- The next number, and what is left. -/
def take (numbers : PassNumbers) : PassId × PassNumbers :=
  (numbers.next, ⟨numbers.next + 1⟩)

end PassNumbers

/-- The accepted passes in order, the numbers of their names, and the numbers still to be given. -/
structure Roster (Instance : Type) where
  passes : List (Registration Instance)
  index : ResultTable String fun _ => PassId
  numbers : PassNumbers

/-- Why a descriptor is refused whatever stands beside it, if it is. -/
def Descriptor.mistake? (descriptor : Descriptor) : Option ConfigError :=
  if descriptor.name ∈ descriptor.requires then
    some (.selfRequirement descriptor.name)
  else match firstRepeat? [] descriptor.requires with
  | some requirement => some (.duplicateRequirement descriptor.name requirement)
  | none =>
      (firstRepeat? [] descriptor.invalidates).map (.duplicateInvalidation descriptor.name)

namespace Roster

variable {Instance : Type}

def empty : Roster Instance where
  passes := []
  index := .empty
  numbers := .start

def size (roster : Roster Instance) : Nat :=
  roster.passes.length

/-- Why a descriptor is refused beside the accepted ones, if it is. -/
def refusal? (roster : Roster Instance) (descriptor : Descriptor) : Option ConfigError :=
  if (roster.index.get? descriptor.name).isSome then
    some (.duplicatePass descriptor.name)
  else
    descriptor.mistake?

/-- Gives a pass the next number and adds it at the end. -/
def accept (roster : Roster Instance) (registration : Registration Instance) : Roster Instance :=
  let (id, numbers) := roster.numbers.take
  { passes := roster.passes ++ [registration]
    index := roster.index.insert registration.descriptor.name id
    numbers }

/-- A call that registers a pass: the roster afterwards, and why the pass was refused if it was. -/
def register (roster : Roster Instance) (registration : Registration Instance) :
    Except ConfigError Unit × Roster Instance :=
  match roster.refusal? registration.descriptor with
  | some error => (.error error, roster)
  | none => (.ok (), roster.accept registration)

/-- The roster after some calls, each accepted or refused. -/
def ofCalls (calls : List (Registration Instance)) : Roster Instance :=
  calls.foldl (fun roster registration => (roster.register registration).2) empty

/-- The numbers of the passes in one list of a descriptor. -/
def resolve (roster : Roster Instance) (name : String) (relation : Relation)
    (references : List String) : Except ConfigError (List PassId) :=
  references.mapM fun reference =>
    match roster.index.get? reference with
    | none => .error (.unknownPassReference name relation reference)
    | some id => .ok id

def resolvePass (roster : Roster Instance) (registration : Registration Instance) :
    Except ConfigError (ResolvedPass Instance) := do
  let descriptor := registration.descriptor
  let requirements ← roster.resolve descriptor.name .requires descriptor.requires
  let invalidations ← roster.resolve descriptor.name .invalidates descriptor.invalidates
  return { registration with requirements, invalidations }

/-- Resolves all names and checks the configuration. -/
def build (roster : Roster Instance) : Except ConfigError (Registry Instance) := do
  let passes ← roster.passes.mapM roster.resolvePass
  let registry := Registry.ofPasses passes
  match registry.fault? with
  | some error => .error error
  | none => return registry

end Roster

end PassScheduler
