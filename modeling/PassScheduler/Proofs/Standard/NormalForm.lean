import PassScheduler.Proofs.Schedule.Accumulation
import PassScheduler.Proofs.Schedule.Gating
import PassScheduler.Proofs.Standard.FixedPoint
import PassScheduler.Proofs.Standard.Outcome
import PassScheduler.Proofs.Transform.NormalForm

/-!
Contract: repeated runs of the standard passes that converge leave functions in normal form.

The last run has changed nothing, so each of its demands found functions that keep all rules and
that its pass leaves as they are. These are the same functions for all of them, and from level two
on all passes take part.

Owns:
- that each demand of a run without a change has come to nothing;
- the normal form of what a converged repetition leaves, whatever was asked of the session before.

Does not own: whether a repetition converges.
-/

namespace PassScheduler.StandardPass

/-! ## Runs without a change -/

/-- The pass of a number, if it takes part, finds nothing to do in functions that keep all rules. -/
def Idle (level : Level) (functions : List Function) (id : PassId) : Prop :=
  ∀ runner, all[id]? = some runner → runner.descriptor.isEnabledAt level →
    firstViolation? [] functions = none ∧ runner.effect functions = functions

theorem idle_of_outcome {level : Level} {id : PassId} {functions after : List Function}
    (unchanged : outcome level id functions = (.ok false, after)) :
    after = functions ∧ Idle level functions id := by
  unfold outcome at unchanged
  cases isPass : all[id]? with
  | none => simp [isPass] at unchanged
  | some runner =>
      simp only [isPass] at unchanged
      by_cases enabled : runner.descriptor.isEnabledAt level
      · rw [if_pos enabled] at unchanged
        cases broken : firstViolation? [] functions with
        | some first =>
            rw [answer_of_broken broken] at unchanged
            cases unchanged
        | none =>
            rw [answer_of_unbroken broken, Prod.mk.injEq, Except.ok.injEq] at unchanged
            have same : runner.effect functions = functions := by simpa using unchanged.1
            refine ⟨unchanged.2.symm.trans same, ?_⟩
            rintro other isOther -
            obtain rfl := Option.some.inj (isPass.symm.trans isOther)
            exact ⟨broken, same⟩
      · rw [if_neg enabled] at unchanged
        refine ⟨(congrArg Prod.snd unchanged).symm, ?_⟩
        rintro other isOther takesPart
        obtain rfl := Option.some.inj (isPass.symm.trans isOther)
        exact absurd takesPart enabled

variable {session after : Session StandardPass Program}

/-- Demands that are answered without a change have found the same functions, one after the other,
and each of them came to nothing. -/
theorem Vouched.idle_of_demandAll {ids : List PassId} (vouched : Vouched session)
    (unchanged : Session.demandAll standard ids session = (.ok false, after)) :
    after.world.functions = session.world.functions ∧
      ∀ id ∈ ids, Idle session.level session.world.functions id := by
  induction ids generalizing session with
  | nil =>
      cases unchanged
      exact ⟨rfl, fun id member => (by cases member)⟩
  | cons id rest inductionHypothesis =>
      rw [Session.demandAll_cons] at unchanged
      obtain ⟨own, between, demanded, unchanged⟩ := Session.andThen_eq_ok.1 unchanged
      obtain ⟨more, last, others, isEnd⟩ := Session.andThen_eq_ok.1 unchanged
      obtain ⟨flags, rfl⟩ := Prod.mk.inj isEnd
      obtain ⟨rfl, rfl⟩ := Bool.or_eq_false_iff.1 (Except.ok.inj flags)
      have isOutcome := vouched.demand_outcome id
      have isDemanded := Session.demanded standard session id
      rw [demanded] at isOutcome isDemanded
      obtain ⟨functions, idle⟩ := idle_of_outcome isOutcome.symm
      have functions : between.world.functions = session.world.functions := functions
      have level : between.level = session.level := isDemanded.level
      obtain ⟨functionsAfter, idleAfter⟩ :=
        inductionHypothesis (vouched.steps isDemanded.steps) others
      rw [functions, level] at idleAfter
      exact ⟨functionsAfter.trans functions, List.forall_mem_cons.2 ⟨idle, idleAfter⟩⟩

/-! ## Repetitions -/

/-- Whatever happens in a session, it stays well formed, and only a change of the level changes
that. -/
theorem accumulates_formed :
    Session.Accumulates standard fun before _ after =>
      Formed before → Formed after ∧ after.level = before.level where
  refl _ formed := ⟨formed, rfl⟩
  trans first second formed := by
    obtain ⟨formedBetween, levelBetween⟩ := first formed
    obtain ⟨formedAfter, levelAfter⟩ := second formedBetween
    exact ⟨formedAfter, levelAfter.trans levelBetween⟩
  reset session formed := ⟨formed.stepped (.reset session), rfl⟩
  told session _ silent formed := ⟨formed.stepped (.told session silent), rfl⟩
  demand := by
    intro session after id changed demanded formed
    have isDemanded := Session.demanded standard session id
    rw [demanded] at isDemanded
    exact ⟨formed.steps isDemanded.steps, isDemanded.level⟩

/-- From level two on, every standard pass takes part. -/
theorem exists_candidate {level : Level} (atLeast : 2 ≤ level) (runner : StandardPass) :
    runner.descriptor.isEnabledAt level ∧
      ∃ id ∈ standard.candidates level, all[id]? = some runner := by
  have isListed : runner ∈ all := by cases runner <;> decide
  have lowest : runner.descriptor.minLevel ≤ 2 := by cases runner <;> decide
  have takesPart := UInt32.le_trans lowest atLeast
  obtain ⟨id, isPass⟩ := List.getElem?_of_mem isListed
  exact ⟨decide_eq_true takesPart, id,
    Registry.mem_candidates.2 ⟨_, descriptor?_eq isPass, takesPart⟩, isPass⟩

/-- Functions in which no pass finds anything to do are in normal form. -/
theorem normal_of_idle {functions : List Function}
    (unbroken : firstViolation? [] functions = none)
    (idle : ∀ runner : StandardPass, runner.effect functions = functions) :
    ∀ function ∈ functions, function.Normal := by
  intro function member
  have names := (firstViolation?_eq_none.1 unbroken).1
  exact Function.normal_of_same (eq_self_of_map (idle .constFold) function member)
    (eq_self_of_map (idle .simplifyBranches) function member)
    (eq_self_of_map (idle .algebraicSimplify) function member)
    (eq_self_of_map (idle .deadCodeElim) function member)
    (LiveSets.values?_ofFunctions names member)

/-- From level two on, repeated runs of the standard passes that converge leave every function in
normal form. This holds whatever was asked of the session before, and of every program. -/
theorem runToFixedPoint_normal {registry : Registry StandardPass}
    (built : StandardPass.registry = .ok registry)
    (reachable : Session.Reachable registry session) (atLeast : 2 ≤ session.level)
    {cap iterations : Nat}
    (converged : session.runToFixedPoint registry cap = (.ok ⟨iterations, true⟩, after)) :
    ∀ function ∈ after.world.functions, function.Normal := by
  obtain rfl : standard = registry := Except.ok.inj (registry_eq.symm.trans built)
  have repeated := Session.repeated (fun session => session.runOnce standard) 0 cap session
  have isRepeated : Session.repeatRun (fun session => session.runOnce standard) 0 cap session =
      (.ok ⟨iterations, true⟩, after) := converged
  rw [isRepeated] at repeated
  obtain ⟨_, last, between, kept, isLast, rfl⟩ :=
    accumulates_formed.converged accumulates_formed.runOnce repeated rfl rfl
  obtain ⟨formed, level⟩ := kept (formed_of_reachable reachable)
  rw [Session.runOnce_eq_tell] at isLast
  obtain ⟨ended, isDemanded, rfl⟩ := Session.tell_eq_ok.1 isLast
  obtain ⟨functions, idle⟩ := formed.vouched_reset.idle_of_demandAll isDemanded
  have each : ∀ runner : StandardPass,
      firstViolation? [] last.world.functions = none ∧
        runner.effect last.world.functions = last.world.functions := by
    intro runner
    obtain ⟨enabled, id, isCandidate, isPass⟩ := exists_candidate (level ▸ atLeast) runner
    exact idle id isCandidate runner isPass enabled
  show ∀ function ∈ ended.world.functions, function.Normal
  rw [functions]
  exact normal_of_idle (each .verify).1 fun runner => (each runner).2

/-- What is left of the function is a jump and a return. -/
theorem runToFixedPoint_normal_undecided :
    let session := Session.start standard 2 (Program.ofFunctions [undecided])
    let settled : Function :=
      ⟨"main", [⟨0⟩], [⟨"entry", [], .jmp "exit"⟩, ⟨"exit", [], .ret (.value ⟨0⟩)⟩]⟩
    registry = .ok standard ∧ Session.Reachable standard session ∧ 2 ≤ session.level ∧
      ∃ after, session.runToFixedPoint standard 20 = (.ok ⟨2, true⟩, after) ∧
        after.world.functions = [settled] ∧ settled.Normal := by
  intro session settled
  have reachable : Session.Reachable standard session := .start 2 _
  have atLeast : 2 ≤ session.level := by decide
  have answered : (session.runToFixedPoint standard 20).1 = .ok ⟨2, true⟩ := by cbv
  have left : (session.runToFixedPoint standard 20).2.world.functions = [settled] := by cbv
  have converged : session.runToFixedPoint standard 20 =
      (.ok ⟨2, true⟩, (session.runToFixedPoint standard 20).2) := Prod.ext answered rfl
  have normal := runToFixedPoint_normal registry_eq reachable atLeast converged
  rw [left] at normal
  exact ⟨registry_eq, reachable, atLeast, _, converged, left, normal settled List.mem_cons_self⟩

end PassScheduler.StandardPass
