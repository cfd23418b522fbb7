import PassScheduler.Proofs.Schedule.Simulation

/-!
Contract: two schedulers that run passes alike meet demands alike.

The work on a demand looks at requirements and at validity, records what it finds, and runs passes.
If all of this is the same from related sessions and leaves them related, then so is a demand. The
two schedulers may number passes differently.

Owns:
- schedulers in lockstep, and that lists of numbers mean the same to both;
- that the recursion takes the same way in both, and that demands are met alike.

Does not own: any relation between sessions.
-/

namespace PassScheduler.Session

variable {Instance World : Type} [Pass Instance World]

/-- Two registries list the same passes in the places that a pass has in each, and from related
sessions the small steps of a demand and the runs of passes are alike. -/
structure Lockstep (same : PassId → PassId → Prop) (registry other : Registry Instance)
    (related : Session Instance World → Session Instance World → Prop) : Prop where
  descriptor?_eq : ∀ {id otherId}, same id otherId →
    registry.descriptor? id = other.descriptor? otherId
  unknown : ∀ {id otherId}, same id otherId → registry.descriptor? id = none → id = otherId
  name_eq : ∀ {id otherId}, same id otherId → registry.name id = other.name otherId
  requirements : ∀ {id otherId}, same id otherId →
    List.Forall₂ same (registry.requirements id) (other.requirements otherId)
  injective : ∀ {id otherId next otherNext}, same id otherId → same next otherNext →
    (id = next ↔ otherId = otherNext)
  level : ∀ {session otherSession}, related session otherSession →
    session.level = otherSession.level
  isValid_eq : ∀ {session otherSession id otherId}, related session otherSession →
    same id otherId → session.isValid id = otherSession.isValid otherId
  demanded : ∀ {session otherSession} (pass : String), related session otherSession →
    related (session.note (.demanded pass)) (otherSession.note (.demanded pass))
  told : ∀ {session otherSession} {notice : Notice}, notice.event? = none →
    related session otherSession → related (session.notice notice) (otherSession.notice notice)
  skipped : ∀ {session otherSession} (descriptor : Descriptor), related session otherSession →
    related (session.recordSkipped descriptor) (otherSession.recordSkipped descriptor)
  cached : ∀ {session otherSession id otherId}, related session otherSession → same id otherId →
    session.isValid id →
    related (session.recordCached (registry.name id))
      (otherSession.recordCached (other.name otherId))
  execute : ∀ {session otherSession id otherId}, related session otherSession →
    same id otherId →
    Alike related (session.execute registry id) (otherSession.execute other otherId)

namespace Lockstep

variable {same : PassId → PassId → Prop} {registry other : Registry Instance}
variable {related : Session Instance World → Session Instance World → Prop}

/-! ## Lists of passes -/

section Lists

variable {id otherId : PassId} {ids otherIds : List PassId}

theorem names_eq (lockstep : Lockstep same registry other related)
    (each : List.Forall₂ same ids otherIds) :
    ids.map registry.name = otherIds.map other.name := by
  rw [← List.forall₂_eq_eq_eq, List.forall₂_map_left_iff, List.forall₂_map_right_iff]
  exact each.imp fun _ _ isSame => lockstep.name_eq isSame

theorem mem_iff (lockstep : Lockstep same registry other related)
    (each : List.Forall₂ same ids otherIds) (isSame : same id otherId) :
    id ∈ ids ↔ otherId ∈ otherIds := by
  induction each with
  | nil => simp
  | cons isFirst _ inductionHypothesis =>
      rw [List.mem_cons, List.mem_cons, inductionHypothesis, lockstep.injective isSame isFirst]

theorem dropWhile (lockstep : Lockstep same registry other related)
    (each : List.Forall₂ same ids otherIds) (isSame : same id otherId) :
    List.Forall₂ same (ids.dropWhile (· ≠ id)) (otherIds.dropWhile (· ≠ otherId)) := by
  induction each with
  | nil => exact .nil
  | @cons head otherHead _ _ isFirst rest inductionHypothesis =>
      have together := lockstep.injective isFirst isSame
      by_cases isHere : head = id
      · have isThere := together.1 isHere
        simpa [isHere, isThere] using List.Forall₂.cons (isHere ▸ isThere ▸ isFirst) rest
      · have isElsewhere : otherHead ≠ otherId := fun isThere => isHere (together.2 isThere)
        simpa [isHere, isElsewhere] using inductionHypothesis

end Lists

/-! ## Demands -/

/-- The recursion takes the same way in both. -/
theorem meet (lockstep : Lockstep same registry other related)
    {session otherSession : Session Instance World} (isRelated : related session otherSession)
    {path otherPath pending otherPending : List PassId}
    (paths : List.Forall₂ same path otherPath) (each : List.Forall₂ same pending otherPending) :
    Alike related (session.meet registry path pending)
      (otherSession.meet other otherPath otherPending) := by
  cases each with
  | nil =>
      rw [Session.meet, Session.meet]
      exact ⟨rfl, isRelated⟩
  | @cons next otherNext pending otherPending isSame rest =>
      have sameValid := lockstep.isValid_eq isRelated isSame
      have samePlace := lockstep.mem_iff paths isSame
      rw [meet_cons, meet_cons, ← sameValid]
      split
      · rename_i valid
        exact lockstep.meet (lockstep.cached isRelated isSame valid) paths rest
      · by_cases onPath : next ∈ path
        · have closing : List.Forall₂ same (path.reverse.dropWhile (· ≠ next) ++ [next])
              (otherPath.reverse.dropWhile (· ≠ otherNext) ++ [otherNext]) :=
            List.rel_append (lockstep.dropWhile (List.rel_reverse paths) isSame)
              (.cons isSame .nil)
          rw [if_pos onPath, if_pos (samePlace.1 onPath), lockstep.names_eq closing]
          exact ⟨rfl, isRelated⟩
        · rw [if_neg onPath, if_neg (mt samePlace.2 onPath), ← paths.length_eq]
          split
          · refine (lockstep.meet isRelated (.cons isSame paths)
              (lockstep.requirements isSame)).andThen fun _ _ _ relatedBetween => ?_
            refine (lockstep.execute relatedBetween isSame).andThen fun _ _ _ relatedAfter => ?_
            exact lockstep.meet relatedAfter paths rest
          · exact ⟨rfl, isRelated⟩
termination_by (maxDepth - path.length, pending.length)
decreasing_by
  · exact .left _ _ (by simp only [List.length_cons]; omega)
  · exact .right _ (by simp)
  · exact .right _ (by simp)

variable {session otherSession : Session Instance World} {id otherId : PassId}

theorem meetAndRun (lockstep : Lockstep same registry other related)
    (isRelated : related session otherSession) (isSame : same id otherId) :
    Alike related (session.meetAndRun registry [] id (registry.requirements id))
      (otherSession.meetAndRun other [] otherId (other.requirements otherId)) := by
  rw [meetAndRun_eq, meetAndRun_eq]
  refine (lockstep.meet isRelated (.cons isSame .nil)
    (lockstep.requirements isSame)).andThen fun _ _ _ relatedBetween => ?_
  exact lockstep.execute relatedBetween isSame

theorem demand (lockstep : Lockstep same registry other related)
    (isRelated : related session otherSession) (isSame : same id otherId) :
    Alike related (session.demand registry id) (otherSession.demand other otherId) := by
  have sameDescriptor := lockstep.descriptor?_eq isSame
  unfold Session.demand
  rw [← sameDescriptor]
  cases found : registry.descriptor? id with
  | none =>
      rw [lockstep.unknown isSame found]
      exact ⟨rfl, isRelated⟩
  | some descriptor =>
      have noted := lockstep.demanded descriptor.name isRelated
      simp only [← lockstep.level noted, ← lockstep.isValid_eq noted isSame,
        resolve_eq_meetAndRun]
      split
      · exact ⟨rfl, lockstep.skipped descriptor noted⟩
      · split
        · rename_i valid
          have named : registry.name id = descriptor.name := by
            simp [Registry.name, found]
          have cached := lockstep.cached noted isSame valid
          rw [← lockstep.name_eq isSame, named] at cached
          exact ⟨rfl, cached⟩
        · exact lockstep.meetAndRun noted isSame

/-- Schedulers in lockstep run parallel. -/
theorem parallels (lockstep : Lockstep same registry other related) :
    Parallels same related (Session.demand registry : Demanding Instance World)
      (Session.demand other) where
  level := lockstep.level
  demand := lockstep.demand
  told := lockstep.told

end Lockstep

end PassScheduler.Session
