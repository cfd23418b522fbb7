import PassScheduler.Collection.FirstRepeat
import PassScheduler.Graph.Requirement
import PassScheduler.Pass.Basic

/-!
Contract: a set of passes whose configuration is known to be sound.

Passes are registered one by one, each with a descriptor and a maker; then the names in the
descriptors are resolved and the whole is checked once.

Owns:
- registrations, and why one is refused;
- the four checks of `build`, in their order: every name is known, analyses do not require one
  another in a circle, no pass requires one of a higher level, and nothing that may run between
  a prerequisite and the pass that needs it makes the prerequisite stale;
- the registry, its look-ups and the passes that one pass draws in.

Does not own: running passes.
-/

namespace PassScheduler

/-- Which list of a descriptor a name stands in. -/
inductive Relation where
  | requires
  | invalidates
deriving DecidableEq, Repr

def Relation.text : Relation → String
  | .requires => "requires"
  | .invalidates => "invalidates"

/-- Why a configuration of passes is refused. -/
inductive ConfigError where
  | duplicatePass (name : String)
  | selfRequirement (name : String)
  | duplicateRequirement (name requirement : String)
  | duplicateInvalidation (name target : String)
  | unknownPassReference (name : String) (relation : Relation) (reference : String)
  | circularDependency (cycle : List String)
  | gatedPrerequisite (name : String) (level : Level) (requirement : String)
      (requirementLevel : Level)
  | conflictingPrerequisites (name prerequisite invalidator : String)
deriving DecidableEq, Repr

def ConfigError.message : ConfigError → String
  | .duplicatePass name => "duplicate pass '" ++ name ++ "'"
  | .selfRequirement name => "pass '" ++ name ++ "' requires itself"
  | .duplicateRequirement name requirement =>
      "pass '" ++ name ++ "' requires '" ++ requirement ++ "' more than once"
  | .duplicateInvalidation name target =>
      "pass '" ++ name ++ "' invalidates '" ++ target ++ "' more than once"
  | .unknownPassReference name relation reference =>
      "unknown pass reference: '" ++ name ++ "' " ++ relation.text ++ " '" ++ reference ++ "'"
  | .circularDependency cycle =>
      "circular pass dependency: " ++ String.intercalate " -> " cycle
  | .gatedPrerequisite name level requirement requirementLevel =>
      "pass '" ++ name ++ "' (level " ++ level.toNat.repr ++ ") requires '" ++ requirement ++
        "', which is gated at level " ++ requirementLevel.toNat.repr
  | .conflictingPrerequisites name prerequisite invalidator =>
      "pass '" ++ name ++ "' requires '" ++ prerequisite ++ "', but '" ++ invalidator ++
        "' invalidates it before '" ++ name ++ "' can run"

/-- A pass as it is registered: its descriptor, and what makes an instance of it. -/
structure Registration (Instance : Type) where
  descriptor : Descriptor
  create : Context → Instance

/-- A registered pass whose names have been resolved. -/
structure ResolvedPass (Instance : Type) extends Registration Instance where
  requirements : List PassId
  invalidations : List PassId

/-- The accepted registrations, in order. -/
structure Registrations (Instance : Type) where
  accepted : List (Registration Instance)

/-- Passes in the order of registration, and which of them were built on top of which. -/
structure Registry (Instance : Type) where
  passes : List (ResolvedPass Instance)
  graph : RequirementGraph

namespace Registrations

variable {Instance : Type}

def empty : Registrations Instance :=
  ⟨[]⟩

def size (registrations : Registrations Instance) : Nat :=
  registrations.accepted.length

/-- The number of the pass of a name. -/
def id? (registrations : Registrations Instance) (name : String) : Option PassId :=
  registrations.accepted.findIdx? fun registration => registration.descriptor.name = name

/-- Why a descriptor is refused beside the accepted ones, if it is. -/
def refusal? (registrations : Registrations Instance) (descriptor : Descriptor) :
    Option ConfigError :=
  if (registrations.id? descriptor.name).isSome then
    some (.duplicatePass descriptor.name)
  else if descriptor.name ∈ descriptor.requires then
    some (.selfRequirement descriptor.name)
  else match firstRepeat? [] descriptor.requires with
  | some requirement => some (.duplicateRequirement descriptor.name requirement)
  | none =>
      (firstRepeat? [] descriptor.invalidates).map (.duplicateInvalidation descriptor.name)

/-- Adds a pass at the end, unless it is refused. -/
def register (registrations : Registrations Instance) (descriptor : Descriptor)
    (create : Context → Instance) : Except ConfigError (Registrations Instance) :=
  match registrations.refusal? descriptor with
  | some error => .error error
  | none => .ok ⟨registrations.accepted ++ [⟨descriptor, create⟩]⟩

/-- The numbers of the passes of some names, all of which stand in one list of a descriptor. -/
def resolveNames (registrations : Registrations Instance) (name : String)
    (relation : Relation) : List String → Except ConfigError (List PassId)
  | [] => .ok []
  | reference :: rest =>
      match registrations.id? reference with
      | none => .error (.unknownPassReference name relation reference)
      | some id => (registrations.resolveNames name relation rest).map (id :: ·)

def resolvePass (registrations : Registrations Instance)
    (registration : Registration Instance) : Except ConfigError (ResolvedPass Instance) :=
  let descriptor := registration.descriptor
  match registrations.resolveNames descriptor.name .requires descriptor.requires with
  | .error error => .error error
  | .ok requirements =>
      (registrations.resolveNames descriptor.name .invalidates descriptor.invalidates).map
        fun invalidations => { registration with requirements, invalidations }

/-- The passes with their names resolved, up to the first name that is unknown. -/
def resolvePasses (registrations : Registrations Instance) :
    List (Registration Instance) → Except ConfigError (List (ResolvedPass Instance))
  | [] => .ok []
  | registration :: rest =>
      match registrations.resolvePass registration with
      | .error error => .error error
      | .ok pass => (registrations.resolvePasses rest).map (pass :: ·)

end Registrations

namespace Registry

variable {Instance : Type}

def size (registry : Registry Instance) : Nat :=
  registry.passes.length

/-- The numbers of all passes, in order. -/
def ids (registry : Registry Instance) : List PassId :=
  List.range registry.size

def pass? (registry : Registry Instance) (id : PassId) : Option (ResolvedPass Instance) :=
  registry.passes[id]?

/-- The number of the pass of a name. -/
def id? (registry : Registry Instance) (name : String) : Option PassId :=
  registry.passes.findIdx? fun pass => pass.descriptor.name = name

def descriptors (registry : Registry Instance) : List Descriptor :=
  registry.passes.map fun pass => pass.descriptor

def descriptor? (registry : Registry Instance) (id : PassId) : Option Descriptor :=
  (registry.pass? id).map fun pass => pass.descriptor

/-- The name of a pass; a number that no pass has names nothing. -/
def name (registry : Registry Instance) (id : PassId) : String :=
  ((registry.descriptor? id).map Descriptor.name).getD ""

def isAnalysis (registry : Registry Instance) (id : PassId) : Bool :=
  ((registry.descriptor? id).map Descriptor.isAnalysis).getD false

/-- The prerequisites of a pass, in the order in which it lists them. -/
def requirements (registry : Registry Instance) (id : PassId) : List PassId :=
  ((registry.pass? id).map ResolvedPass.requirements).getD []

/-- The passes that a pass makes stale, in the order in which it lists them. -/
def invalidations (registry : Registry Instance) (id : PassId) : List PassId :=
  ((registry.pass? id).map ResolvedPass.invalidations).getD []

/-- A pass and everything that it requires directly or through others, each once, prerequisites
first and the pass itself last. -/
def requiredPasses (registry : Registry Instance) (id : PassId) : List PassId :=
  Search.reachable registry.requirements registry.ids [id]

/-- The passes that take part at a level, in the order of registration. -/
def candidates (registry : Registry Instance) (level : Level) : List PassId :=
  registry.ids.filter fun id =>
    ((registry.descriptor? id).map fun descriptor => descriptor.isEnabledAt level).getD false

/-- The registry of some passes, before anything is checked. -/
def ofPasses (passes : List (ResolvedPass Instance)) : Registry Instance where
  passes := passes
  graph := RequirementGraph.ofEdges passes.length
    (passes.zipIdx.flatMap fun (pass, dependent) =>
      pass.requirements.map fun prerequisite => (prerequisite, dependent))

/-- The first circle in which analyses require one another, its first pass repeated at its
end. -/
def analysisCycle? (registry : Registry Instance) : Option (List PassId) :=
  let analyses := registry.ids.filter registry.isAnalysis
  let next := fun id => (registry.requirements id).filter registry.isAnalysis
  Search.closedWalk? next analyses [] (analyses.map .enter)

/-- The first prerequisite of a pass that only takes part at a higher level than the pass. -/
def gatedRequirement? (registry : Registry Instance) (pass : ResolvedPass Instance) :
    Option ConfigError :=
  pass.requirements.findSome? fun id =>
    match registry.descriptor? id with
    | none => none
    | some requirement =>
        if requirement.minLevel > pass.descriptor.minLevel then
          some (.gatedPrerequisite pass.descriptor.name pass.descriptor.minLevel
            requirement.name requirement.minLevel)
        else
          none

/-- The first of some prerequisites that is an analysis and that the run of `runner` makes
stale. -/
def staleAfter? (registry : Registry Instance) (runner : PassId) (earlier : List PassId) :
    Option PassId :=
  (registry.invalidations runner).findSome? fun target =>
    let stale := target :: registry.graph.transitiveDependents target
    earlier.find? fun id => registry.isAnalysis id && stale.contains id

/-- The first prerequisite that goes stale before the pass that needs it can run, with the pass
whose run makes it stale, when the prerequisites `earlier` come before the given ones. Whatever
can run in between is required by a later prerequisite, directly or through others. -/
def conflictAmong? (registry : Registry Instance) (earlier : List PassId) :
    List PassId → Option (PassId × PassId)
  | [] => none
  | later :: rest =>
      match (registry.requiredPasses later).findSome? fun runner =>
          (registry.staleAfter? runner earlier).map fun stale => (stale, runner) with
      | some conflict => some conflict
      | none => registry.conflictAmong? (earlier ++ [later]) rest

/-- The first conflict among the prerequisites of a pass. The first of them has none before
it. -/
def conflict? (registry : Registry Instance) (pass : ResolvedPass Instance) :
    Option ConfigError :=
  match pass.requirements with
  | [] => none
  | first :: rest =>
      (registry.conflictAmong? [first] rest).map fun (prerequisite, invalidator) =>
        .conflictingPrerequisites pass.descriptor.name (registry.name prerequisite)
          (registry.name invalidator)

/-- The first fault of the configuration, once all names are resolved. -/
def fault? (registry : Registry Instance) : Option ConfigError :=
  match registry.analysisCycle? with
  | some cycle => some (.circularDependency (cycle.map registry.name))
  | none =>
      match registry.passes.findSome? registry.gatedRequirement? with
      | some error => some error
      | none => registry.passes.findSome? registry.conflict?

end Registry

/-- Resolves all names and checks the configuration. -/
def Registrations.build {Instance : Type} (registrations : Registrations Instance) :
    Except ConfigError (Registry Instance) :=
  match registrations.resolvePasses registrations.accepted with
  | .error error => .error error
  | .ok passes =>
      let registry := Registry.ofPasses passes
      match registry.fault? with
      | some error => .error error
      | none => .ok registry

end PassScheduler
