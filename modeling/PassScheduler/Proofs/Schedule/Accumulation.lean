import PassScheduler.Proofs.Schedule.Course

/-!
Contract: what the answer of a demand means carries over to runs and repetitions.

A relation between sessions, with a flag for whether something has changed, holds of whatever is
answered if it holds of every demand that is answered, holds without a change of everything else
that a run does, and can be put together in sequence.

Owns:
- such relations, and that they hold of lists of demands, of runs and of repetitions;
- how a repetition goes, one case for each way in which it ends or goes on;
- the flag of a repetition, and the run that a converged one ends with.

Does not own: any relation of this kind.
-/

namespace PassScheduler.Session

variable {Instance World : Type}

/-! ## Repetitions -/

section Repetition

variable {run : Session Instance World → Attempt Instance World Bool}

/-- How a run is repeated. -/
inductive Repeated (run : Session Instance World → Attempt Instance World Bool) :
    Nat → Nat → Session Instance World → Attempt Instance World FixedPoint → Prop where
  | capped {made : Nat} {session : Session Instance World} :
      Repeated run made 0 session (.ok ⟨made, false⟩, session.notice (.capReached made))
  | failed {made remaining : Nat} {error : ScheduleError} {session after : Session Instance World}
      (ran : run session = (.error error, after)) :
      Repeated run made (remaining + 1) session (.error error, after)
  | settled {made remaining : Nat} {session after : Session Instance World}
      (ran : run session = (.ok false, after)) :
      Repeated run made (remaining + 1) session
        (.ok ⟨made + 1, true⟩, after.notice (.fixedPointReached (made + 1)))
  | again {made remaining : Nat} {session between : Session Instance World}
      {attempt : Attempt Instance World FixedPoint} (ran : run session = (.ok true, between))
      (rest : Repeated run (made + 1) remaining between attempt) :
      Repeated run made (remaining + 1) session attempt

theorem repeated (run : Session Instance World → Attempt Instance World Bool)
    (made remaining : Nat) (session : Session Instance World) :
    Repeated run made remaining session (repeatRun run made remaining session) := by
  induction remaining generalizing made session with
  | zero => exact .capped
  | succ remaining inductionHypothesis =>
      rw [repeatRun_succ]
      cases ran : run session with
      | mk result between =>
          cases result with
          | error error => exact .failed ran
          | ok changed =>
              cases changed with
              | false => exact .settled ran
              | true => exact .again ran (inductionHypothesis (made + 1) between)

/-- The runs that were made before are counted, no more runs are made than remain, and a converged
repetition has made one. -/
theorem Repeated.counts {made remaining : Nat} {session : Session Instance World}
    {attempt : Attempt Instance World FixedPoint}
    (repeated : Repeated run made remaining session attempt) {outcome : FixedPoint}
    (answered : attempt.1 = .ok outcome) :
    made ≤ outcome.iterations ∧ outcome.iterations ≤ made + remaining ∧
      (outcome.converged → made < outcome.iterations) := by
  induction repeated with
  | capped =>
      cases answered
      simp
  | failed => cases answered
  | settled =>
      cases answered
      simp
  | again _ _ inductionHypothesis =>
      obtain ⟨atLeast, atMost, _⟩ := inductionHypothesis answered
      omega

end Repetition

variable [Pass Instance World] {registry : Registry Instance}

/-- A relation that an answered demand stands in with its answer, that everything else stands in
without a change, and that can be put together: a change of either part is one of the whole. -/
structure Accumulates (registry : Registry Instance)
    (related : Session Instance World → Bool → Session Instance World → Prop) : Prop where
  refl : ∀ session, related session false session
  trans : ∀ {first second third} {earlier later : Bool}, related first earlier second →
    related second later third → related first (earlier || later) third
  demand : ∀ {session after id changed}, session.demand registry id = (.ok changed, after) →
    related session changed after
  reset : ∀ session, related session false session.reset
  told : ∀ (session : Session Instance World) {notice : Notice}, notice.event? = none →
    related session false (session.notice notice)

namespace Accumulates

variable {related : Session Instance World → Bool → Session Instance World → Prop}
variable {session after : Session Instance World} {changed : Bool}

theorem demandAll (accumulates : Accumulates registry related) {ids : List PassId}
    (ended : Session.demandAll registry ids session = (.ok changed, after)) :
    related session changed after := by
  induction ids generalizing session changed with
  | nil =>
      cases ended
      exact accumulates.refl _
  | cons id rest inductionHypothesis =>
      rw [demandAll_cons] at ended
      obtain ⟨own, between, demanded, ended⟩ := andThen_eq_ok.1 ended
      obtain ⟨more, last, others, ended⟩ := andThen_eq_ok.1 ended
      cases ended
      exact accumulates.trans (accumulates.demand demanded) (inductionHypothesis others)

/-- A run resets, demands some passes and tells of itself. -/
private theorem run (accumulates : Accumulates registry related) {ids : List PassId}
    {summary : Level → Bool → Notice}
    (silent : ∀ level changed, (summary level changed).event? = none)
    (ended : tell summary (Session.demandAll registry ids session.reset) = (.ok changed, after)) :
    related session changed after := by
  obtain ⟨last, demanded, rfl⟩ := tell_eq_ok.1 ended
  have begun := accumulates.trans (accumulates.reset session) (accumulates.demandAll demanded)
  have whole := accumulates.trans begun (accumulates.told last (silent last.level changed))
  rwa [Bool.false_or, Bool.or_false] at whole

theorem runOnce (accumulates : Accumulates registry related)
    (ended : session.runOnce registry = (.ok changed, after)) :
    related session changed after := by
  rw [runOnce_eq_tell] at ended
  exact accumulates.run (fun _ _ => rfl) ended

theorem runList (accumulates : Accumulates registry related) {names : List String}
    (ended : session.runList registry names = (.ok changed, after)) :
    related session changed after := by
  cases resolved : registry.resolveNames names with
  | error error => simp [Session.runList, resolved] at ended
  | ok ids =>
      rw [runList_eq_tell resolved] at ended
      exact accumulates.run (fun _ _ => rfl) ended

section Repetition

variable {run : Session Instance World → Attempt Instance World Bool} {made remaining : Nat}
variable {attempt : Attempt Instance World FixedPoint} {outcome : FixedPoint}

/-- From the first run on that is not counted yet, every run but a converged last one has changed
something. -/
theorem repeated (accumulates : Accumulates registry related)
    (each : ∀ {session after changed}, run session = (.ok changed, after) →
      related session changed after)
    (repeated : Repeated run made remaining session attempt) (answered : attempt.1 = .ok outcome) :
    related session
      (decide (made + 1 < outcome.iterations ∨
        made + 1 = outcome.iterations ∧ outcome.converged = false)) attempt.2 := by
  induction repeated with
  | @capped made session =>
      cases answered
      rw [decide_eq_false]
      · exact accumulates.told session rfl
      · show ¬ (made + 1 < made ∨ made + 1 = made ∧ false = false)
        omega
  | failed => cases answered
  | @settled made _ session after ran =>
      cases answered
      rw [decide_eq_false]
      · exact accumulates.trans (each ran) (accumulates.told after rfl)
      · simp
  | again ran rest inductionHypothesis =>
      obtain ⟨atLeast, _, more⟩ := rest.counts answered
      have whole := accumulates.trans (each ran) (inductionHypothesis answered)
      rw [Bool.true_or] at whole
      -- This run has changed something, so the flag is up whatever the rest comes to: a repetition
      -- that converges after it counts a further run.
      rw [decide_eq_true]
      · exact whole
      · cases isConverged : outcome.converged with
        | false =>
            rw [and_iff_left rfl]
            omega
        | true => exact .inl (more isConverged)

/-- A repetition tells whether any run of it has changed something. -/
theorem repeatRun (accumulates : Accumulates registry related)
    (each : ∀ {session after changed}, run session = (.ok changed, after) →
      related session changed after)
    {cap : Nat} (ended : Session.repeatRun run 0 cap session = (.ok outcome, after)) :
    related session outcome.changed after := by
  have whole := accumulates.repeated each (Session.repeated run 0 cap session)
    (congrArg Prod.fst ended)
  have same : decide (0 + 1 < outcome.iterations ∨
      0 + 1 = outcome.iterations ∧ outcome.converged = false) = outcome.changed := by
    unfold FixedPoint.changed
    grind
  rwa [same, ended] at whole

/-- A converged repetition ends with a run that answers that nothing has changed. -/
theorem converged (accumulates : Accumulates registry related)
    (each : ∀ {session after changed}, run session = (.ok changed, after) →
      related session changed after)
    (repeated : Repeated run made remaining session attempt) (answered : attempt.1 = .ok outcome)
    (isConverged : outcome.converged) :
    ∃ earlier last between, related session earlier last ∧ run last = (.ok false, between) ∧
      attempt.2 = between.notice (.fixedPointReached outcome.iterations) := by
  induction repeated with
  | capped =>
      cases answered
      cases isConverged
  | failed => cases answered
  | @settled _ _ session after ran =>
      cases answered
      exact ⟨false, session, after, accumulates.refl session, ran, rfl⟩
  | again ran _ inductionHypothesis =>
      obtain ⟨earlier, last, between, isRelated, isLast, isEnd⟩ := inductionHypothesis answered
      exact ⟨_, last, between, accumulates.trans (each ran) isRelated, isLast, isEnd⟩

end Repetition

end Accumulates

end PassScheduler.Session
