import PassScheduler.Proofs.Schedule.Changes
import PassScheduler.Proofs.Schedule.Prerequisites

/-!
Contract: a valid analysis stands on valid analyses.

A run takes validity from everything that was built on what it upsets, so no valid result is left
without the results that it was computed from. The one exception is a pass whose own run upsets a
prerequisite: that run is recorded after it has made the prerequisite stale.

Owns:
- the invariant that the valid passes are closed under required analyses, but for that exception;
- that every step keeps it, a failed execution included;
- a registry in which the exception occurs.

Does not own: which passes are run again because they are not valid.
-/

open Relation (ReflTransGen)

namespace PassScheduler

/-- A run that reaches a prerequisite reaches what requires it. -/
theorem Registry.Upsets.dependent {Instance : Type} {registry : Registry Instance}
    {runner dependent prerequisite : PassId} (upsets : registry.Upsets runner prerequisite)
    (requires : registry.Requires dependent prerequisite) :
    registry.Upsets runner dependent := by
  obtain ⟨target, isTarget, way⟩ := upsets
  exact ⟨target, isTarget, .head requires way⟩

namespace Session

variable {Instance World : Type} {registry : Registry Instance}

/-- The analyses that a valid pass requires are valid, unless its own run upsets them. -/
structure Closed (registry : Registry Instance) (session : Session Instance World) : Prop where
  fits : session.Fits registry
  required : ∀ dependent prerequisite, session.isValid dependent →
    registry.Requires dependent prerequisite → registry.isAnalysis prerequisite →
      ¬ registry.Upsets dependent prerequisite → session.isValid prerequisite

theorem closed_of_none_valid {session : Session Instance World} (fits : session.Fits registry)
    (noneValid : ∀ id, ¬ session.isValid id) :
    session.Closed registry :=
  ⟨fits, fun dependent _ valid => absurd valid (noneValid dependent)⟩

theorem Closed.of_validity {session after : Session Instance World}
    (closed : session.Closed registry) (sameValidity : after.validity = session.validity) :
    after.Closed registry where
  fits := by
    rw [Fits, sameValidity]
    exact closed.fits
  required dependent prerequisite valid := by
    rw [isValid, sameValidity] at valid ⊢
    exact closed.required dependent prerequisite valid

variable [Pass Instance World]

namespace Executed

variable {session : Session Instance World} {id : PassId} {attempt : Attempt Instance World Bool}

/-- A pass that has run found every analysis that it requires valid. -/
theorem fresh_of_ok (executed : Executed registry session id attempt) {changed : Bool}
    (succeeded : attempt.1 = .ok changed) {other : PassId} (requires : registry.Requires id other)
    (isAnalysis : registry.isAnalysis other) :
    session.isValid other := by
  cases executed with
  | ran _ fresh => exact fresh other requires isAnalysis
  | _ => cases succeeded

theorem closed_of_ok (executed : Executed registry session id attempt)
    (accepted : registry.Accepted) (closed : session.Closed registry) {changed : Bool}
    (succeeded : attempt.1 = .ok changed) :
    attempt.2.Closed registry := by
  have validAfter := executed.isValid_of_ok closed.fits succeeded
  refine ⟨executed.fits closed.fits, ?_⟩
  intro dependent prerequisite valid requires isAnalysis spared
  by_cases own : prerequisite = id
  · subst own
    exact (validAfter prerequisite).2 (.inl ⟨rfl, isAnalysis⟩)
  · rcases (validAfter dependent).1 valid with ⟨rfl, _⟩ | ⟨_, wasValid, notStale⟩
    · have found := executed.fresh_of_ok succeeded requires isAnalysis
      exact executed.isValid_kept accepted closed.fits found own spared
    · have found := closed.required dependent prerequisite wasValid requires isAnalysis spared
      apply executed.isValid_kept accepted closed.fits found own
      -- Were the prerequisite upset, the dependent would have gone stale with it.
      intro upsets
      exact notStale (accepted.resolved.mem_stale.2 (upsets.dependent requires))

theorem closed (executed : Executed registry session id attempt) (accepted : registry.Accepted)
    (closed : session.Closed registry) :
    attempt.2.Closed registry := by
  cases result : attempt.1 with
  | error error => exact closed.of_validity (executed.validity_of_error result)
  | ok changed => exact executed.closed_of_ok accepted closed result

end Executed

theorem Step.closed {before after : Session Instance World} (stepped : Step registry before after)
    (accepted : registry.Accepted) (closed : before.Closed registry) :
    after.Closed registry := by
  cases stepped with
  | executed executed => exact executed.closed accepted closed
  | reset =>
      exact closed_of_none_valid ((Step.reset before).fits closed.fits) before.not_isValid_reset
  | _ => exact closed.of_validity rfl

theorem Reachable.closed {session : Session Instance World}
    (reachable : Reachable registry session) (accepted : registry.Accepted) :
    session.Closed registry := by
  apply reachable.invariant
  · intro level world
    exact closed_of_none_valid (Reachable.start level world).fits
      (not_isValid_start registry level world)
  · intro session world held
    exact held.of_validity rfl
  · intro before after moved held
    exact kept_of_steps moved.steps (fun _ _ stepped held => stepped.closed accepted held) held

/-- If an analysis is valid, then so is every analysis among its direct prerequisites, unless the
analysis itself lists as invalidated that prerequisite or something that it requires, directly or
through others. -/
theorem Reachable.isValid_prerequisite {session : Session Instance World}
    (reachable : Reachable registry session) (accepted : registry.Accepted)
    {dependent prerequisite : PassId} (valid : session.isValid dependent)
    (requires : registry.Requires dependent prerequisite)
    (isAnalysis : registry.isAnalysis prerequisite) :
    session.isValid prerequisite ∨
      ∃ target ∈ registry.invalidations dependent,
        ReflTransGen registry.Requires prerequisite target := by
  by_cases upsets : registry.Upsets dependent prerequisite
  · exact .inr upsets
  · have closed := reachable.closed accepted
    exact .inl (closed.required dependent prerequisite valid requires isAnalysis upsets)

/-- An analysis, one that is built on it, and one that is built on it and makes it stale. -/
def wearing : List (ResolvedPass Reporter) :=
  [⟨⟨Descriptor.analysis "flow", fun _ => ⟨false⟩⟩, [], []⟩,
    ⟨⟨(Descriptor.analysis "alias").requiring "flow", fun _ => ⟨false⟩⟩, [0], []⟩,
    ⟨⟨((Descriptor.analysis "prune").requiring "flow").invalidating "flow", fun _ => ⟨true⟩⟩,
      [0], [0]⟩]

theorem accepted_wearing : (Registry.ofPasses wearing).Accepted := by
  have registered : (Registrations.mk (wearing.map ResolvedPass.toRegistration)).Registered :=
    ((Registrations.Registered.empty.add wearing[0].toRegistration rfl).add
      wearing[1].toRegistration rfl).add wearing[2].toRegistration rfl
  have faultless : (Registry.ofPasses wearing).fault? = none := by cbv
  exact ⟨_, registered, Registry.build_of_resolved rfl faultless⟩

/-- The session that some requests lead to. -/
def worn (requests : List Request) : Session Reporter Unit :=
  Session.performAll (.ofPasses wearing) (.start (.ofPasses wearing) 0 ()) requests

/-- The second analysis is valid and stands on the first. Once the third has run it is valid and
the others are not: its run was recorded after they had gone stale. -/
theorem Reachable.isValid_prerequisite_wearing :
    let registry := Registry.ofPasses wearing
    registry.Accepted ∧ (worn [.demand 1]).isValid 1 ∧ (worn [.demand 1]).isValid 0 ∧
      (worn [.demand 1, .demand 2]).isValid 2 ∧ ¬ (worn [.demand 1, .demand 2]).isValid 1 ∧
      ¬ (worn [.demand 1, .demand 2]).isValid 0 ∧ registry.Upsets 2 0 := by
  intro registry
  have reachable : Reachable registry (worn [.demand 1]) := .performed (.start 0 ()) (.demand 1)
  have valid : (worn [.demand 1]).isValid 1 := by cbv
  have pruned : (worn [.demand 1, .demand 2]).isValid 2 := by cbv
  have aliasGone : (worn [.demand 1, .demand 2]).isValid 1 = false := by cbv
  have flowGone : (worn [.demand 1, .demand 2]).isValid 0 = false := by cbv
  have listed : registry.Requires 1 0 := List.mem_singleton_self 0
  have spared : ¬ ∃ target ∈ registry.invalidations 1,
      ReflTransGen registry.Requires 0 target := by
    rintro ⟨target, isTarget, _⟩
    cases isTarget
  have stands := reachable.isValid_prerequisite accepted_wearing valid listed rfl
  refine ⟨accepted_wearing, valid, stands.resolve_right spared, pruned, ?_, ?_, ?_⟩
  · simp [aliasGone]
  · simp [flowGone]
  · exact ⟨0, List.mem_singleton_self 0, .refl⟩

end Session

end PassScheduler
