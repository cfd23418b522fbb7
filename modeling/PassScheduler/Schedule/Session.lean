import PassScheduler.Pass.Registry
import PassScheduler.Pass.Validity
import PassScheduler.Schedule.Notice
import PassScheduler.Schedule.Trace

/-!
Contract: what a scheduler remembers between demands, and the small steps that change it.

Owns:
- the session: level, validity, instances of passes, trace, journal, and the world that the
  passes work on;
- changing the level, starting anew, and the recording of decisions;
- the making of instances, which happens when a pass is first run at a level.

Does not own: which pass runs when.
-/

namespace PassScheduler

/-- An instance of a pass with what its maker was told. -/
structure Binding (Instance : Type) where
  context : Context
  bound : Instance

/-- What happened in a session, in more detail than its trace tells: a change of level, a reset,
the demand of a pass from outside, the making of an instance, the entry of a run with what the
maker of its instance was told, and everything that is told to the outside. -/
inductive JournalEntry where
  | levelSet (level : Level)
  | reset
  | demanded (pass : String)
  | created (context : Context)
  | entered (context : Context)
  | noticed (notice : Notice)
deriving DecidableEq, Repr

structure Session (Instance World : Type) where
  level : Level
  validity : ValiditySet
  instances : List (Option (Binding Instance))
  trace : Trace
  journal : Array JournalEntry
  world : World

namespace Session

variable {Instance World : Type}

/-- A session over a registry in which nothing has happened. -/
def start (registry : Registry Instance) (level : Level) (world : World) :
    Session Instance World where
  level := level
  validity := .fresh registry.size
  instances := List.replicate registry.size none
  trace := .empty
  journal := #[]
  world := world

def note (session : Session Instance World) (entry : JournalEntry) : Session Instance World :=
  { session with journal := session.journal.push entry }

def notice (session : Session Instance World) (notice : Notice) : Session Instance World :=
  session.note (.noticed notice)

/-- Changes the level. Instances are given up, so that the next run of each pass is by one that
was made for the new level. -/
def setLevel (session : Session Instance World) (level : Level) : Session Instance World :=
  { session.note (.levelSet level) with
    level := level
    instances := List.replicate session.instances.length none }

/-- Trusts no result any more. -/
def reset (session : Session Instance World) : Session Instance World :=
  { session.note .reset with validity := session.validity.reset }

/-- The session with its trace taken out. -/
def clearTrace (session : Session Instance World) : Session Instance World :=
  { session with trace := .empty }

def isValid (session : Session Instance World) (id : PassId) : Bool :=
  session.validity.isValid id

def record (session : Session Instance World) (event : Event) : Session Instance World :=
  { session with trace := session.trace.record event }

/-- Records that a pass takes no part at the level of the session. -/
def recordSkipped (session : Session Instance World) (descriptor : Descriptor) :
    Session Instance World :=
  (session.notice (.skipped descriptor.name descriptor.minLevel)).record
    ⟨descriptor.name, .skipped⟩

/-- Records that the valid result of a pass was used again. -/
def recordCached (session : Session Instance World) (pass : String) :
    Session Instance World :=
  (session.notice (.cached pass)).record ⟨pass, .cached⟩

/-- Records that a pass ran. -/
def recordRan (session : Session Instance World) (pass : String) (changed : Bool) :
    Session Instance World :=
  (session.notice (.ran pass changed)).record ⟨pass, .ran changed⟩

/-- Takes its validity from a pass and records that, if it has any. -/
def invalidate (registry : Registry Instance) (session : Session Instance World) (id : PassId) :
    Session Instance World :=
  if session.isValid id then
    let pass := registry.name id
    let session := { session with validity := session.validity.invalidate id }
    (session.notice (.invalidated pass)).record ⟨pass, .invalidated⟩
  else
    session

/-- Takes its validity from a pass and then from everything that was built on it. -/
def invalidateWithDependents (registry : Registry Instance) (session : Session Instance World)
    (target : PassId) : Session Instance World :=
  (target :: registry.graph.transitiveDependents target).foldl (invalidate registry) session

/-- The instance of a pass that is kept for the level, if one was made. -/
def binding? (session : Session Instance World) (id : PassId) : Option (Binding Instance) :=
  (session.instances[id]?).join

def keep (session : Session Instance World) (id : PassId) (binding : Binding Instance) :
    Session Instance World :=
  { session with instances := session.instances.set id (some binding) }

/-- The instance of a pass for the level, made now if there is none. -/
def obtain (session : Session Instance World) (id : PassId) (pass : ResolvedPass Instance) :
    Binding Instance × Session Instance World :=
  match session.binding? id with
  | some binding => (binding, session)
  | none =>
      let context : Context := ⟨pass.descriptor.name, session.level⟩
      let binding : Binding Instance := ⟨context, pass.create context⟩
      (binding, (session.note (.created context)).keep id binding)

/-- Runs an instance of a pass on the world, and keeps both as they are afterwards. -/
def enter [Pass Instance World] (session : Session Instance World) (id : PassId)
    (binding : Binding Instance) : Except PassError Bool × Session Instance World :=
  let (result, bound, world) := Pass.run binding.bound session.world
  let session := session.note (.entered binding.context)
  (result, { session.keep id { binding with bound := bound } with world := world })

end Session

end PassScheduler
