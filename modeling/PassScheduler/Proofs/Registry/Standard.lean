import Mathlib.Data.List.Permutation
import PassScheduler.Pass.StandardRegistry
import PassScheduler.Proofs.Registry.Acceptance

/-!
Contract: the registry of the standard passes, computed.

Owns:
- the standard passes with the numbers that their names resolve to;
- that these passes are accepted, and that the registry holds nothing else.

Does not own: what follows from acceptance.
-/

namespace PassScheduler.StandardPass

/-- The standard passes as the registry holds them. -/
def resolved : List (ResolvedPass StandardPass) :=
  [⟨⟨verify.descriptor, fun _ => .verify⟩, [], []⟩,
    ⟨⟨liveness.descriptor, fun _ => .liveness⟩, [0], []⟩,
    ⟨⟨constFold.descriptor, fun _ => .constFold⟩, [0], [0]⟩,
    ⟨⟨simplifyBranches.descriptor, fun _ => .simplifyBranches⟩, [0], [0]⟩,
    ⟨⟨algebraicSimplify.descriptor, fun _ => .algebraicSimplify⟩, [0], [0]⟩,
    ⟨⟨deadCodeElim.descriptor, fun _ => .deadCodeElim⟩, [1], [0]⟩]

private theorem fault?_resolved : (Registry.ofPasses resolved).fault? = none := by
  cbv

theorem registry_eq : registry = .ok (.ofPasses resolved) := by
  have passes : registrations.bind (fun each => each.resolvePasses each.accepted) = .ok resolved :=
    rfl
  unfold registry
  cases registered : registrations with
  | error error => simp [registered, Except.bind] at passes
  | ok each =>
      simp only [registered, Except.bind] at passes ⊢
      exact Registry.build_of_resolved passes fault?_resolved

private theorem registered_registerAll {passes : List StandardPass}
    {registrations extended : Registrations StandardPass} (registered : registrations.Registered)
    (added : registerAll passes registrations = .ok extended) :
    extended.Registered := by
  induction passes generalizing registrations with
  | nil =>
      cases added
      exact registered
  | cons pass rest inductionHypothesis =>
      unfold registerAll at added
      cases accepted : registrations.register pass.descriptor fun _ => pass with
      | error error => simp [accepted] at added
      | ok longer =>
          rw [accepted] at added
          exact inductionHypothesis (.register _ _ registered accepted) added

theorem accepted {built : Registry StandardPass} (isBuilt : registry = .ok built) :
    built.Accepted := by
  unfold registry at isBuilt
  cases registered : registrations with
  | error error => simp [registered, Except.bind] at isBuilt
  | ok each =>
      rw [registered] at isBuilt
      exact ⟨each, registered_registerAll .empty registered, isBuilt⟩

end PassScheduler.StandardPass
