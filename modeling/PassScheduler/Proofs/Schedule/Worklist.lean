import PassScheduler.Proofs.Registry.Standard
import PassScheduler.Proofs.Schedule.Recursion

/-!
Contract: the stack of waiting passes is an implementation of a plain recursion.

A demand that has to run its pass works off a stack. The recursion meets the prerequisites of the
pass in order: one that is valid is used again, one that is already on the path closes a circle, one
that would wait behind too many others is refused, and any other is met by the same recursion. Then
the pass runs.

Owns: that both come to the same answer and the same session, with its trace, its states, its
instances and its world, whether they succeed or fail.

Does not own: what either of them guarantees.
-/

namespace PassScheduler.Session

variable {Instance World : Type} [Pass Instance World] {registry : Registry Instance}

/-- A demand of a pass that takes part at the level and is not valid starts with a stack of that
pass alone. -/
theorem demand_eq_resolve {session : Session Instance World} {root : PassId}
    {descriptor : Descriptor} (found : registry.descriptor? root = some descriptor)
    (enabled : descriptor.isEnabledAt session.level) (invalid : ¬ session.isValid root) :
    session.demand registry root =
      resolve registry [⟨root, registry.requirements root⟩]
        (session.note (.demanded descriptor.name)) := by
  have sameLevel : (session.note (.demanded descriptor.name)).level = session.level := rfl
  have stillInvalid : ¬ (session.note (.demanded descriptor.name)).isValid root := invalid
  unfold demand
  simp only [found, sameLevel, enabled, Bool.not_true, Bool.false_eq_true, if_false, stillInvalid]

/-- The work on the stack of a demand is the recursion from an empty path. -/
theorem demand_eq_recursion {session : Session Instance World} {root : PassId}
    {descriptor : Descriptor} (found : registry.descriptor? root = some descriptor)
    (enabled : descriptor.isEnabledAt session.level) (invalid : ¬ session.isValid root) :
    session.demand registry root =
        resolve registry [⟨root, registry.requirements root⟩]
          (session.note (.demanded descriptor.name)) ∧
      ∀ begun : Session Instance World,
        resolve registry [⟨root, registry.requirements root⟩] begun =
          begun.meetAndRun registry [] root (registry.requirements root) :=
  ⟨demand_eq_resolve found enabled invalid,
    fun begun => resolve_eq_meetAndRun registry begun root (registry.requirements root)⟩

/-- The demand of `dead-code-elim`, which waits for `liveness`, which waits for `verify`. -/
theorem demand_eq_recursion_deadCodeElim :
    let registry := Registry.ofPasses StandardPass.resolved
    let session := Session.start registry 1 (Program.ofFunctions [])
    registry.descriptor? 5 = some StandardPass.deadCodeElim.descriptor ∧
      StandardPass.deadCodeElim.descriptor.isEnabledAt session.level ∧ ¬ session.isValid 5 ∧
      session.demand registry 5 =
        (session.note (.demanded "dead-code-elim")).meetAndRun registry [] 5 [1] := by
  intro registry session
  have found : registry.descriptor? 5 = some StandardPass.deadCodeElim.descriptor := rfl
  have enabled : StandardPass.deadCodeElim.descriptor.isEnabledAt session.level := by decide
  have invalid : ¬ session.isValid 5 := by decide
  obtain ⟨worked, recursion⟩ := demand_eq_recursion found enabled invalid
  exact ⟨found, enabled, invalid, worked.trans (recursion _)⟩

end PassScheduler.Session
