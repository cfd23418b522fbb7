import PassScheduler.Schedule.Session

/-!
Contract: one pass is demanded, and what it requires runs first.

Demanding a pass works off a stack of passes that wait for their prerequisites. The pass on top
either takes its next prerequisite, which is already valid, closes a circle, would make the stack
too deep, or is put on top; or it has none left and runs. A run makes stale what the pass lists
and everything built on that.

Owns:
- why a demand fails;
- the run of a single pass, `execute`;
- the stack, one turn of the work on it, and the measure that every turn lowers;
- `resolve`, which takes turns until the answer is there;
- `demand`, which first sees to passes that take no part or are valid.

Does not own: demands of several passes.
-/

namespace PassScheduler

/-- How many passes may wait for one another. -/
def maxDepth : Nat := 256

/-- Why a demand fails. -/
inductive ScheduleError where
  | unknownPass (name : String)
  | passFailed (pass : String) (cause : PassError)
  | requirementCycle (path : List String)
  | depthExceeded (depth : Nat)
  | stalePrerequisite (pass prerequisite : String)
deriving DecidableEq, Repr

def ScheduleError.message : ScheduleError → String
  | .unknownPass name => "unknown pass '" ++ name ++ "'"
  | .passFailed pass cause => "pass '" ++ pass ++ "' failed: " ++ cause.message
  | .requirementCycle path =>
      "requirement cycle while scheduling: " ++ String.intercalate " -> " path
  | .depthExceeded depth =>
      "prerequisite chain deeper than " ++ depth.repr ++ " passes"
  | .stalePrerequisite pass prerequisite =>
      "prerequisite '" ++ prerequisite ++ "' of pass '" ++ pass ++
        "' was invalidated before '" ++ pass ++ "' could run"

/-- A number that no pass has is reported under this name. -/
def unissuedName (id : PassId) : String :=
  "PassId(" ++ id.repr ++ ")"

/-- What work on a session comes to. Whatever was done before an error stays done. -/
abbrev Attempt (Instance World α : Type) :=
  Except ScheduleError α × Session Instance World

/-- A pass that waits, with the prerequisites that it has not yet taken. -/
structure Frame where
  pass : PassId
  pending : List PassId
deriving DecidableEq, Repr

namespace Registry

variable {Instance : Type}

/-- The most prerequisites that any pass lists. -/
def breadth (registry : Registry Instance) : Nat :=
  (registry.passes.map fun pass => pass.requirements.length).max?.getD 0

theorem requirements_length_le_breadth (registry : Registry Instance) (id : PassId) :
    (registry.requirements id).length ≤ registry.breadth := by
  unfold requirements pass? breadth
  cases found : registry.passes[id]? with
  | none => simp
  | some pass =>
      have member : pass.requirements.length ∈
          registry.passes.map fun pass => pass.requirements.length :=
        List.mem_map.2 ⟨pass, List.mem_of_getElem? found, rfl⟩
      cases largest : (registry.passes.map fun pass => pass.requirements.length).max? with
      | none =>
          rw [List.max?_eq_none_iff] at largest
          simp [largest] at member
      | some bound => exact (List.max?_eq_some_iff.1 largest).2 _ member

/-- The steps that one pending prerequisite can cost at most, when `room` more passes may be put
on the stack and none lists more than `breadth` prerequisites: it is taken, and then it takes its
own prerequisites and runs. -/
def stepCost (breadth : Nat) : Nat → Nat
  | 0 => 1
  | room + 1 => 2 + breadth * stepCost breadth room

/-- The steps that the work on a stack can take at most. -/
def workload (breadth : Nat) : List Frame → Nat
  | [] => 0
  | frame :: below =>
      1 + frame.pending.length * stepCost breadth (maxDepth - (below.length + 1)) +
        workload breadth below

private theorem stepCost_pos (breadth room : Nat) : 0 < stepCost breadth room := by
  cases room <;> simp only [stepCost] <;> omega

private theorem workload_take_lt (breadth id next : Nat) (pending : List PassId)
    (below : List Frame) :
    workload breadth (⟨id, pending⟩ :: below) <
      workload breadth (⟨id, next :: pending⟩ :: below) := by
  have positive := stepCost_pos breadth (maxDepth - (below.length + 1))
  simp only [workload, List.length_cons, Nat.succ_mul]
  omega

private theorem workload_push_lt {breadth : Nat} {requirements : List PassId}
    (few : requirements.length ≤ breadth) (id next : Nat) (pending : List PassId)
    (below : List Frame) (shallow : below.length + 1 < maxDepth) :
    workload breadth (⟨next, requirements⟩ :: ⟨id, pending⟩ :: below) <
      workload breadth (⟨id, next :: pending⟩ :: below) := by
  obtain ⟨room, roomLeft⟩ : ∃ room, maxDepth - (below.length + 1) = room + 1 :=
    ⟨maxDepth - (below.length + 1) - 1, by omega⟩
  have roomAbove : maxDepth - (below.length + 1 + 1) = room := by omega
  have cost := Nat.mul_le_mul_right (stepCost breadth room) few
  simp only [workload, List.length_cons, roomLeft, roomAbove, Nat.succ_mul]
  simp only [stepCost]
  omega

end Registry

namespace Session

variable {Instance World : Type} [Pass Instance World]

/-- Runs a pass whose prerequisites have been seen to, makes stale what it invalidates, and then
records its own run. A failed run makes nothing stale. -/
def execute (registry : Registry Instance) (session : Session Instance World) (id : PassId) :
    Attempt Instance World Bool :=
  match registry.pass? id with
  | none => (.error (.unknownPass (unissuedName id)), session)
  | some pass =>
      let name := pass.descriptor.name
      match pass.requirements.find? fun id => registry.isAnalysis id && !session.isValid id with
      | some stale => (.error (.stalePrerequisite name (registry.name stale)), session)
      | none =>
          let (binding, session) := session.obtain id pass
          match session.enter id binding with
          | (.error cause, session) => (.error (.passFailed name cause), session)
          | (.ok changed, session) =>
              let session := pass.invalidations.foldl (invalidateWithDependents registry)
                (session.recordRan name changed)
              (.ok changed,
                { session with
                  validity := session.validity.recordRun id pass.descriptor.kind })

/-- The passes of a stack from the given one up, and that one again at the end. -/
def closedPath (stack : List Frame) (id : PassId) : List PassId :=
  (stack.reverse.map Frame.pass).dropWhile (· ≠ id) ++ [id]

/-- What one turn of the work on a stack leads to. -/
inductive Turn (Instance World : Type) where
  | go (stack : List Frame) (session : Session Instance World)
  | stop (attempt : Attempt Instance World Bool)

/-- One turn of the work on a stack of waiting passes, the top first. The pass at the bottom is
the last to run, and its answer is that of the whole. -/
def turn (registry : Registry Instance) :
    List Frame → Session Instance World → Turn Instance World
  | [], session => .stop (.ok false, session)
  | ⟨id, []⟩ :: below, session =>
      match session.execute registry id with
      | (.error error, session) => .stop (.error error, session)
      | (.ok changed, session) =>
          if below = [] then .stop (.ok changed, session) else .go below session
  | ⟨id, next :: pending⟩ :: below, session =>
      if session.isValid next then
        .go (⟨id, pending⟩ :: below) (session.recordCached (registry.name next))
      else if next ∈ id :: below.map Frame.pass then
        .stop (.error (.requirementCycle
          ((closedPath (⟨id, pending⟩ :: below) next).map registry.name)), session)
      else if below.length + 1 < maxDepth then
        .go (⟨next, registry.requirements next⟩ :: ⟨id, pending⟩ :: below) session
      else
        .stop (.error (.depthExceeded maxDepth), session)

/-- Every turn that is not the last one lowers what the work can still take. -/
theorem workload_lt_of_turn {registry : Registry Instance} {stack next : List Frame}
    {session after : Session Instance World}
    (moved : turn registry stack session = .go next after) :
    Registry.workload registry.breadth next < Registry.workload registry.breadth stack := by
  unfold turn at moved
  split at moved
  · cases moved
  · split at moved
    · cases moved
    · split at moved
      · cases moved
      · cases moved
        simp only [Registry.workload]
        omega
  · split at moved
    · cases moved
      exact Registry.workload_take_lt _ _ _ _ _
    · split at moved
      · cases moved
      · split at moved
        · rename_i shallow
          cases moved
          exact Registry.workload_push_lt (registry.requirements_length_le_breadth _) _ _ _ _
            shallow
        · cases moved

/-- Takes turns on a stack until there is an answer. -/
def resolve (registry : Registry Instance) (stack : List Frame)
    (session : Session Instance World) : Attempt Instance World Bool :=
  match _moved : turn registry stack session with
  | .stop attempt => attempt
  | .go next after => resolve registry next after
termination_by Registry.workload registry.breadth stack
decreasing_by exact workload_lt_of_turn _moved

/-- Demands a pass. One that takes no part at the level is skipped, one that is valid is not run
again, and neither has changed anything. -/
def demand (registry : Registry Instance) (session : Session Instance World) (id : PassId) :
    Attempt Instance World Bool :=
  match registry.descriptor? id with
  | none => (.error (.unknownPass (unissuedName id)), session)
  | some descriptor =>
      let session := session.note (.demanded descriptor.name)
      if !descriptor.isEnabledAt session.level then
        (.ok false, session.recordSkipped descriptor)
      else if session.isValid id then
        (.ok false, session.recordCached descriptor.name)
      else
        resolve registry [⟨id, registry.requirements id⟩] session

end Session

end PassScheduler
