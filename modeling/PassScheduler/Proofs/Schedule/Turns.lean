import PassScheduler.Proofs.Schedule.Circularity
import PassScheduler.Proofs.Schedule.Worklist

/-!
Contract: the turns of the work on a stack of waiting passes.

A transformation is never valid, so it runs again whenever it is required, and runs of other passes
change what is valid while a pass waits. Neither says when the work ends. What does is that a pass
does not wait for itself and that not too many passes wait: every turn lowers what the prerequisites
that are not yet taken can still cost.

Owns:
- the ways in which a turn goes on, and the four in which it is the last one;
- what holds of the stack at every turn of a demand;
- that every demand which has to run its pass comes to its last turn, after a bounded number of
  turns, and that the stack is not empty then.

Does not own: in which of the four ways a demand ends.
-/

namespace PassScheduler.Session

variable {Instance World : Type} [Pass Instance World] {registry : Registry Instance}

/-! ## A single turn -/

/-- The ways in which the work on a stack is left. -/
inductive Leaves (registry : Registry Instance) :
    List Frame → Session Instance World → Attempt Instance World Bool → Prop where
  | circle {id next : PassId} {pending : List PassId} {below : List Frame}
      {session : Session Instance World} (invalid : ¬ session.isValid next)
      (waits : next ∈ id :: below.map Frame.pass) :
      Leaves registry (⟨id, next :: pending⟩ :: below) session
        (.error (.requirementCycle
          ((closedPath (⟨id, pending⟩ :: below) next).map registry.name)), session)
  | depth {id next : PassId} {pending : List PassId} {below : List Frame}
      {session : Session Instance World} (invalid : ¬ session.isValid next)
      (deep : maxDepth ≤ below.length + 1) :
      Leaves registry (⟨id, next :: pending⟩ :: below) session
        (.error (.depthExceeded maxDepth), session)
  | failed {id : PassId} {below : List Frame} {session after : Session Instance World}
      {error : ScheduleError} (executed : Executed registry session id (.error error, after)) :
      Leaves registry (⟨id, []⟩ :: below) session (.error error, after)
  | finished {id : PassId} {session after : Session Instance World} {changed : Bool}
      (executed : Executed registry session id (.ok changed, after)) :
      Leaves registry [⟨id, []⟩] session (.ok changed, after)

/-- The ways in which a turn goes. On an empty stack there is nothing to do. -/
inductive Turned (registry : Registry Instance) :
    List Frame → Session Instance World → Turn Instance World → Prop where
  | empty (session : Session Instance World) :
      Turned registry [] session (.stop (.ok false, session))
  | cached {id next : PassId} {pending : List PassId} {below : List Frame}
      {session : Session Instance World} (valid : session.isValid next) :
      Turned registry (⟨id, next :: pending⟩ :: below) session
        (.go (⟨id, pending⟩ :: below) (session.recordCached (registry.name next)))
  | pushed {id next : PassId} {pending : List PassId} {below : List Frame}
      {session : Session Instance World} (invalid : ¬ session.isValid next)
      (offStack : next ∉ id :: below.map Frame.pass) (shallow : below.length + 1 < maxDepth) :
      Turned registry (⟨id, next :: pending⟩ :: below) session
        (.go (⟨next, registry.requirements next⟩ :: ⟨id, pending⟩ :: below) session)
  | ran {id : PassId} {below : List Frame} {session after : Session Instance World}
      {changed : Bool} (executed : Executed registry session id (.ok changed, after))
      (more : below ≠ []) :
      Turned registry (⟨id, []⟩ :: below) session (.go below after)
  | left {stack : List Frame} {session : Session Instance World}
      {attempt : Attempt Instance World Bool} (leaves : Leaves registry stack session attempt) :
      Turned registry stack session (.stop attempt)

theorem turned (registry : Registry Instance) (stack : List Frame)
    (session : Session Instance World) :
    Turned registry stack session (turn registry stack session) := by
  match stack with
  | [] => exact .empty session
  | ⟨id, []⟩ :: below =>
      have execution := executed registry session id
      rw [turn]
      generalize session.execute registry id = attempt at execution
      obtain ⟨result, after⟩ := attempt
      cases result with
      | error error => exact .left (.failed execution)
      | ok changed =>
          by_cases last : below = []
          · subst last
            exact .left (.finished execution)
          · simp only [last, if_false]
            exact .ran execution last
  | ⟨id, next :: pending⟩ :: below =>
      rw [turn]
      by_cases valid : session.isValid next
      · rw [if_pos valid]
        exact .cached valid
      · rw [if_neg valid]
        by_cases waits : next ∈ id :: below.map Frame.pass
        · rw [if_pos waits]
          exact .left (.circle valid waits)
        · rw [if_neg waits]
          by_cases shallow : below.length + 1 < maxDepth
          · rw [if_pos shallow]
            exact .pushed valid waits shallow
          · rw [if_neg shallow]
            exact .left (.depth valid (Nat.not_lt.1 shallow))

/-! ## What holds of the stack -/

/-- The stack of a demand, the top first. What a frame still waits for follows, in the order of its
pass, on the prerequisites that were taken; the last of these is the pass above. -/
structure Stacked (registry : Registry Instance) (root : PassId) (stack : List Frame)
    (session : Session Instance World) : Prop where
  bottom : (stack.map Frame.pass).getLast? = some root
  once : (stack.map Frame.pass).Nodup
  shallow : stack.length ≤ maxDepth
  invalid : ∀ frame ∈ stack, ¬ session.isValid frame.pass
  taken : stack.IsChain fun upper lower =>
    ∃ before, registry.requirements lower.pass = before ++ upper.pass :: lower.pending
  top : ∀ frame ∈ stack.head?, frame.pending <:+ registry.requirements frame.pass
  fits : session.Fits registry

namespace Stacked

variable {root : PassId} {stack : List Frame} {session : Session Instance World}

omit [Pass Instance World] in
theorem ne_nil (stacked : Stacked registry root stack session) : stack ≠ [] := by
  rintro rfl
  cases stacked.bottom

omit [Pass Instance World] in
theorem start (fits : session.Fits registry) (invalid : ¬ session.isValid root) :
    Stacked registry root [⟨root, registry.requirements root⟩] session where
  bottom := rfl
  once := List.nodup_singleton root
  shallow := by simp [maxDepth]
  invalid := by simpa using invalid
  taken := List.isChain_singleton _
  top := by simp
  fits := fits

variable {id next : PassId} {pending : List PassId} {below : List Frame}

omit [Pass Instance World] in
theorem cached (stacked : Stacked registry root (⟨id, next :: pending⟩ :: below) session)
    (pass : String) :
    Stacked registry root (⟨id, pending⟩ :: below) (session.recordCached pass) where
  bottom := stacked.bottom
  once := stacked.once
  shallow := stacked.shallow
  invalid := by
    obtain ⟨topInvalid, belowInvalid⟩ := List.forall_mem_cons.1 stacked.invalid
    exact List.forall_mem_cons.2 ⟨topInvalid, belowInvalid⟩
  taken := by
    obtain ⟨onTop, rest⟩ := List.isChain_cons.1 stacked.taken
    exact List.isChain_cons.2 ⟨onTop, rest⟩
  top := by
    rintro _ ⟨⟩
    exact (List.suffix_cons next pending).trans (stacked.top _ rfl)
  fits := stacked.fits

omit [Pass Instance World] in
theorem pushed (stacked : Stacked registry root (⟨id, next :: pending⟩ :: below) session)
    (invalid : ¬ session.isValid next) (offStack : next ∉ id :: below.map Frame.pass)
    (shallow : below.length + 1 < maxDepth) :
    Stacked registry root (⟨next, registry.requirements next⟩ :: ⟨id, pending⟩ :: below)
      session where
  bottom := stacked.bottom
  once := List.nodup_cons.2 ⟨offStack, stacked.once⟩
  shallow := shallow
  invalid := by
    obtain ⟨topInvalid, belowInvalid⟩ := List.forall_mem_cons.1 stacked.invalid
    exact List.forall_mem_cons.2 ⟨invalid, List.forall_mem_cons.2 ⟨topInvalid, belowInvalid⟩⟩
  taken := by
    obtain ⟨onTop, rest⟩ := List.isChain_cons.1 stacked.taken
    obtain ⟨before, listed⟩ := stacked.top _ rfl
    exact List.isChain_cons_cons.2 ⟨⟨before, listed.symm⟩, List.isChain_cons.2 ⟨onTop, rest⟩⟩
  top := by
    rintro _ ⟨⟩
    exact List.suffix_rfl
  fits := stacked.fits

/-- The pass that ran was none of those that wait, so none of them became valid. -/
theorem ran (stacked : Stacked registry root (⟨id, []⟩ :: below) session) {changed : Bool}
    {after : Session Instance World} (executed : Executed registry session id (.ok changed, after))
    (more : below ≠ []) :
    Stacked registry root below after := by
  obtain ⟨notBelow, onceBelow⟩ := List.nodup_cons.1 stacked.once
  obtain ⟨_, belowInvalid⟩ := List.forall_mem_cons.1 stacked.invalid
  obtain ⟨onTop, rest⟩ := List.isChain_cons.1 stacked.taken
  obtain ⟨lower, others, rfl⟩ := List.exists_cons_of_ne_nil more
  refine ⟨stacked.bottom, onceBelow, Nat.le_of_succ_le stacked.shallow, ?_, rest, ?_,
    executed.fits stacked.fits⟩
  · intro frame waits valid
    rcases (executed.isValid_of_ok stacked.fits rfl frame.pass).1 valid with
      ⟨isRunner, _⟩ | ⟨_, wasValid, _⟩
    · have isBelow : frame.pass ∈ (lower :: others).map Frame.pass := List.mem_map_of_mem waits
      exact notBelow (isRunner ▸ isBelow)
    · exact belowInvalid frame waits wasValid
  · rintro _ ⟨⟩
    obtain ⟨before, listed⟩ := onTop lower rfl
    exact ⟨before ++ [id], by simp [listed]⟩

/-- What holds of the stack holds after a turn. -/
theorem turned {next : List Frame} {after : Session Instance World}
    (stacked : Stacked registry root stack session)
    (moved : turn registry stack session = .go next after) :
    Stacked registry root next after := by
  have way := Session.turned registry stack session
  rw [moved] at way
  cases way with
  | cached => exact stacked.cached _
  | pushed invalid offStack shallow => exact stacked.pushed invalid offStack shallow
  | ran executed more => exact stacked.ran executed more

/-- The last turn is not one on an empty stack. -/
theorem leaves {attempt : Attempt Instance World Bool}
    (stacked : Stacked registry root stack session)
    (stopped : turn registry stack session = .stop attempt) :
    Leaves registry stack session attempt := by
  have way := Session.turned registry stack session
  rw [stopped] at way
  cases way with
  | empty => exact absurd rfl stacked.ne_nil
  | left leaves => exact leaves

end Stacked

/-! ## All turns of a demand -/

/-- Some turns that go on, and how many. -/
inductive Turns (registry : Registry Instance) :
    List Frame → Session Instance World → Nat → List Frame → Session Instance World → Prop where
  | none {stack : List Frame} {session : Session Instance World} :
      Turns registry stack session 0 stack session
  | more {stack next last : List Frame} {session between after : Session Instance World}
      {count : Nat} (moved : turn registry stack session = .go next between)
      (rest : Turns registry next between count last after) :
      Turns registry stack session (count + 1) last after

namespace Turns

variable {stack last : List Frame} {session after : Session Instance World} {count : Nat}

theorem stacked {root : PassId} (turns : Turns registry stack session count last after)
    (stacked : Stacked registry root stack session) :
    Stacked registry root last after := by
  induction turns with
  | none => exact stacked
  | more moved _ inductionHypothesis => exact inductionHypothesis (stacked.turned moved)

/-- Every turn costs at least one step of what the stack can still take. -/
theorem count_le (turns : Turns registry stack session count last after) :
    count + Registry.workload registry.breadth last ≤
      Registry.workload registry.breadth stack := by
  induction turns with
  | none => omega
  | more moved _ inductionHypothesis =>
      have lowered := workload_lt_of_turn moved
      omega

end Turns

/-- The work on any stack comes to a last turn, which gives the answer. -/
theorem exists_turns (registry : Registry Instance) (stack : List Frame)
    (session : Session Instance World) :
    ∃ count last between, Turns registry stack session count last between ∧
      turn registry last between = .stop (resolve registry stack session) := by
  induction stack, session using @resolve.induct Instance World ‹_› registry with
  | case1 stack session attempt stopped =>
      refine ⟨0, stack, session, .none, ?_⟩
      rw [resolve_eq_turn, stopped]
  | case2 stack session next after moved inductionHypothesis =>
      obtain ⟨count, last, between, turns, stopped⟩ := inductionHypothesis
      refine ⟨count + 1, last, between, .more moved turns, ?_⟩
      rw [resolve_eq_turn registry stack, moved]
      exact stopped

/-- A demand that has to run its pass works on a stack that is never empty and never too deep, of
passes that differ and are not valid, each taken last by the one below it. There is a bound to its
turns; it comes to a last one, and leaves there in one of the four ways. -/
theorem Reachable.demand_turns {session : Session Instance World}
    (reachable : Reachable registry session) {root : PassId} {descriptor : Descriptor}
    (found : registry.descriptor? root = some descriptor)
    (enabled : descriptor.isEnabledAt session.level) (invalid : ¬ session.isValid root) :
    let stack := [⟨root, registry.requirements root⟩]
    let begun := session.note (.demanded descriptor.name)
    (∀ count last between, Turns registry stack begun count last between →
        last ≠ [] ∧ Stacked registry root last between ∧
          count ≤ Registry.workload registry.breadth stack ∧
          ∀ attempt, turn registry last between = .stop attempt →
            Leaves registry last between attempt) ∧
      ∃ count last between, Turns registry stack begun count last between ∧
        turn registry last between = .stop (session.demand registry root) := by
  intro stack begun
  have initial : Stacked registry root stack begun := .start reachable.fits invalid
  constructor
  · intro count last between turns
    have stacked := turns.stacked initial
    have bound := turns.count_le
    exact ⟨stacked.ne_nil, stacked, by omega, fun attempt stopped => stacked.leaves stopped⟩
  · rw [demand_eq_resolve found enabled invalid]
    exact exists_turns registry stack begun

/-- The demand of `b`, which requires `a`, which requires `b`: the circle is found when both wait. -/
theorem Reachable.demand_turns_winding :
    let registry := Registry.ofPasses winding
    let session := Session.start registry 0 (Program.ofFunctions [])
    let begun := session.note (.demanded "b")
    registry.Accepted ∧ Reachable registry session ∧ ¬ session.isValid 1 ∧
      Stacked registry 1 [⟨0, [1]⟩, ⟨1, []⟩] begun ∧
      Leaves registry [⟨0, [1]⟩, ⟨1, []⟩] begun
        (.error (.requirementCycle ["b", "a", "b"]), begun) ∧
      ∃ count last between, Turns registry [⟨1, [0]⟩] begun count last between ∧
        turn registry last between = .stop (session.demand registry 1) := by
  intro registry session begun
  have reachable : Reachable registry session := .start 0 _
  have invalid : ¬ session.isValid 1 := by decide
  have found : registry.descriptor? 1 = some _ := rfl
  obtain ⟨each, ended⟩ := reachable.demand_turns found (by decide) invalid
  have pushed : turn registry [⟨1, [0]⟩] begun = .go [⟨0, [1]⟩, ⟨1, []⟩] begun := by cbv
  have stopped : turn registry [⟨0, [1]⟩, ⟨1, []⟩] begun =
      .stop (.error (.requirementCycle ["b", "a", "b"]), begun) := by cbv
  obtain ⟨_, stacked, _, leaves⟩ := each 1 _ _ (.more pushed .none)
  exact ⟨accepted_winding, reachable, invalid, stacked, leaves _ stopped, ended⟩

end PassScheduler.Session
