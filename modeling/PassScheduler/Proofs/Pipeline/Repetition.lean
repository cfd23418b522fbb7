import PassScheduler.Proofs.Pipeline.Driving

/-!
Contract: a repetition is its run, called so many times in a row.

Calls in a row are made without looking at their answers. Which of them a repetition makes can be
told from the answers alone: up to the first that is not a change, and up to the cap if there is
none.

Owns:
- calls in a row, and which call decides a repetition;
- that a repetition of rounds answers and leaves what the calls up to the deciding one do, apart
  from the journal;
- that the report of an optimisation has the disjunction of their flags.

Does not own: what a single call does.
-/

namespace PassScheduler.Session

variable {Instance World : Type}

/-! ## Calls in a row -/

/-- The session after some calls in a row, whatever they answer. -/
def called (run : Session Instance World → Attempt Instance World Bool) :
    (count : Nat) → Session Instance World → Session Instance World
  | 0, session => session
  | count + 1, session => called run count (run session).2

/-- The answer of the call that so many others go before. -/
def answerAt (run : Session Instance World → Attempt Instance World Bool)
    (session : Session Instance World) (place : Nat) : Except ScheduleError Bool :=
  (run (called run place session)).1

/-- The flags that some calls in a row answer. -/
def flags (run : Session Instance World → Attempt Instance World Bool)
    (session : Session Instance World) (count : Nat) : List Bool :=
  (List.range count).filterMap fun place => (answerAt run session place).toOption

/-- A session without its journal. -/
def unjournaled (session : Session Instance World) : Session Instance World :=
  { session with journal := #[] }

/-- Which call in a row decides a repetition, counted from one, and whether the repetition has then
converged: the first that answers no change or an error, if it is not behind the cap. -/
inductive Decides (run : Session Instance World → Attempt Instance World Bool)
    (session : Session Instance World) (cap : Nat) : Nat → Except ScheduleError Bool → Prop where
  | unchanged {place : Nat} (within : place < cap)
      (earlier : ∀ before < place, answerAt run session before = .ok true)
      (answered : answerAt run session place = .ok false) :
      Decides run session cap (place + 1) (.ok true)
  | failed {place : Nat} {error : ScheduleError} (within : place < cap)
      (earlier : ∀ before < place, answerAt run session before = .ok true)
      (answered : answerAt run session place = .error error) :
      Decides run session cap (place + 1) (.error error)
  | capped (all : ∀ place < cap, answerAt run session place = .ok true) :
      Decides run session cap cap (.ok false)

/-- An attempt comes to what so many calls in a row do: it answers by the verdict of the last one,
and leaves the session as they do. It has converged iff a call that it may make answers no
change. -/
structure ComesTo (run : Session Instance World → Attempt Instance World Bool)
    (session : Session Instance World) (cap : Nat) (attempt : Attempt Instance World FixedPoint)
    (count : Nat) (verdict : Except ScheduleError Bool) : Prop where
  decides : Decides run session cap count verdict
  answered : attempt.1 = verdict.map (⟨count, ·⟩)
  left : attempt.2.unjournaled = (called run count session).unjournaled
  converged_iff : ∀ outcome, attempt.1 = .ok outcome →
    (outcome.converged = true ↔ ∃ place < cap, answerAt run session place = .ok false)

section Calls

variable {run : Session Instance World → Attempt Instance World Bool}
variable {session between : Session Instance World} {cap count : Nat}
variable {verdict : Except ScheduleError Bool}

private theorem earlier_succ {place : Nat} (ran : run session = (.ok true, between))
    (earlier : ∀ before < place, answerAt run between before = .ok true) :
    ∀ before < place + 1, answerAt run session before = .ok true := by
  intro before isBefore
  cases before with
  | zero => rw [answerAt, called, ran]
  | succ before =>
      rw [answerAt, called, ran]
      exact earlier before (Nat.lt_of_succ_lt_succ isBefore)

/-- A call that answers a change leaves the decision to those after it. -/
theorem Decides.again (ran : run session = (.ok true, between))
    (decides : Decides run between cap count verdict) :
    Decides run session (cap + 1) (count + 1) verdict := by
  have next : ∀ place, answerAt run session (place + 1) = answerAt run between place := by
    intro place
    rw [answerAt, called, ran]
    rfl
  cases decides with
  | unchanged within earlier answered =>
      exact .unchanged (Nat.succ_lt_succ within) (earlier_succ ran earlier)
        ((next _).trans answered)
  | failed within earlier answered =>
      exact .failed (Nat.succ_lt_succ within) (earlier_succ ran earlier)
        ((next _).trans answered)
  | capped all => exact .capped (earlier_succ ran all)

/-- A repetition has converged iff some call that it may make answers no change. -/
theorem Decides.converged_iff {converged : Bool}
    (decides : Decides run session cap count (.ok converged)) :
    converged = true ↔ ∃ place < cap, answerAt run session place = .ok false := by
  cases decides with
  | @unchanged place within _ answered => exact iff_of_true rfl ⟨place, within, answered⟩
  | capped all =>
      refine iff_of_false Bool.false_ne_true ?_
      rintro ⟨place, within, answered⟩
      rw [all place within] at answered
      cases answered

/-- Whether a repetition has converged is settled by its deciding call. -/
theorem ComesTo.of_decides {attempt : Attempt Instance World FixedPoint}
    (decides : Decides run session cap count verdict)
    (answered : attempt.1 = verdict.map (⟨count, ·⟩))
    (left : attempt.2.unjournaled = (called run count session).unjournaled) :
    ComesTo run session cap attempt count verdict where
  decides := decides
  answered := answered
  left := left
  converged_iff := by
    intro outcome isOutcome
    rw [answered] at isOutcome
    cases verdict with
    | error error => cases isOutcome
    | ok converged =>
        cases isOutcome
        exact decides.converged_iff

/-- The answer of an attempt tells which call has decided, and how. -/
theorem ComesTo.eq_of_answered {attempt : Attempt Instance World FixedPoint} {outcome : FixedPoint}
    (comes : ComesTo run session cap attempt count verdict) (answered : attempt.1 = .ok outcome) :
    count = outcome.iterations ∧ verdict = .ok outcome.converged := by
  rw [comes.answered] at answered
  cases verdict with
  | error error => cases answered
  | ok converged =>
      cases answered
      exact ⟨rfl, rfl⟩

private theorem Repeated.decides {made remaining : Nat}
    {attempt : Attempt Instance World FixedPoint}
    (repeated : Repeated run made remaining session attempt) :
    ∃ count verdict, Decides run session remaining count verdict ∧
      attempt.1 = verdict.map (⟨made + count, ·⟩) ∧
      attempt.2.unjournaled = (called run count session).unjournaled := by
  induction repeated with
  | capped => exact ⟨0, .ok false, .capped (by simp), rfl, rfl⟩
  | @failed _ _ error session after ran =>
      refine ⟨1, .error error, .failed (Nat.succ_pos _) (by simp) ?_, rfl, ?_⟩
      · rw [answerAt, called, ran]
      · rw [called, called, ran]
  | @settled _ _ session after ran =>
      refine ⟨1, .ok true, .unchanged (Nat.succ_pos _) (by simp) ?_, rfl, ?_⟩
      · rw [answerAt, called, ran]
      · rw [called, called, ran]
        rfl
  | @again made _ session between _ ran _ inductionHypothesis =>
      obtain ⟨count, verdict, decides, answered, left⟩ := inductionHypothesis
      refine ⟨count + 1, verdict, decides.again ran, ?_, ?_⟩
      · rw [answered, Nat.add_assoc, Nat.add_comm 1 count]
      · rw [left, called, ran]

/-- A repetition ends with the verdict of the deciding call, in the session that the calls up to it
lead to. -/
theorem Repeated.comesTo {attempt : Attempt Instance World FixedPoint}
    (repeated : Repeated run 0 cap session attempt) :
    ∃ count verdict, ComesTo run session cap attempt count verdict := by
  obtain ⟨count, verdict, decides, answered, left⟩ := repeated.decides
  rw [Nat.zero_add] at answered
  exact ⟨count, verdict, .of_decides decides answered left⟩

private theorem flags_of_all {count : Nat}
    (all : ∀ place < count, answerAt run session place = .ok true) :
    flags run session count = List.replicate count true := by
  unfold flags
  induction count with
  | zero => rfl
  | succ count inductionHypothesis =>
      have last : answerAt run session count = .ok true := all count (by omega)
      have before := inductionHypothesis fun place isBefore => all place (by omega)
      rw [List.range_succ, List.filterMap_append, before, List.replicate_succ']
      simp [last, Except.toOption]

/-- Whether any call up to the deciding one has answered a change can be told from their number and
from whether the repetition has converged. -/
theorem Decides.flags_any {converged : Bool}
    (decides : Decides run session cap count (.ok converged)) :
    (flags run session count).any id = (FixedPoint.mk count converged).changed := by
  cases decides with
  | @unchanged place _ earlier answered =>
      have before := flags_of_all earlier
      unfold flags at before ⊢
      rw [List.range_succ, List.filterMap_append, before]
      cases place <;> simp [answered, Except.toOption, FixedPoint.changed]
  | capped all =>
      rw [flags_of_all all]
      rcases cap with _ | _ | cap <;> simp [FixedPoint.changed]

end Calls

end PassScheduler.Session

namespace PassScheduler

namespace Registry

variable {Instance : Type}

/-- Whether every name of a list is that of a pass. Without a list no name is looked up. -/
def knowsAll (registry : Registry Instance) : Option (List String) → Bool
  | none => true
  | some names => names.all fun name => (registry.id? name).isSome

theorem resolveNames_isOk (registry : Registry Instance) (names : List String) :
    (registry.resolveNames names).isOk = registry.knowsAll (some names) := by
  induction names with
  | nil => rfl
  | cons name rest inductionHypothesis =>
      simp only [knowsAll, List.all_cons] at inductionHypothesis ⊢
      rw [resolveNames, ← inductionHypothesis]
      cases registry.id? name with
      | none => rfl
      | some id => cases registry.resolveNames rest <;> rfl

end Registry

namespace Session

variable {Instance World : Type} [Pass Instance World] {registry : Registry Instance}

/-! ## Repetitions of rounds -/

/-- The repetition of a round, of all passes that take part or of those of a list. -/
def repetition (registry : Registry Instance) (passes : Option (List String)) (cap : Nat)
    (session : Session Instance World) : Attempt Instance World FixedPoint :=
  match passes with
  | none => session.runToFixedPoint registry cap
  | some names => session.runListToFixedPoint registry names cap

/-- Names are looked up before the first round, so an unknown one fails a repetition whatever its
cap is, with the error of a round. Neither does anything else. -/
theorem repetition_of_unknown {passes : Option (List String)}
    (unknown : registry.knowsAll passes = false) (cap : Nat) (session : Session Instance World) :
    ∃ error, session.round registry passes = (.error error, session) ∧
      session.repetition registry passes cap = (.error error, session) := by
  cases passes with
  | none => cases unknown
  | some names =>
      rw [← registry.resolveNames_isOk names] at unknown
      cases resolved : registry.resolveNames names with
      | ok ids =>
          rw [resolved] at unknown
          cases unknown
      | error error =>
          refine ⟨error, ?_, ?_⟩
          · rw [round, runList, resolved]
          · rw [repetition, runListToFixedPoint, resolved]

theorem repetition_of_known {passes : Option (List String)}
    (known : registry.knowsAll passes = true) (cap : Nat) (session : Session Instance World) :
    session.repetition registry passes cap = repeatRun (round registry passes) 0 cap session := by
  cases passes with
  | none => rfl
  | some names =>
      rw [← registry.resolveNames_isOk names] at known
      cases resolved : registry.resolveNames names with
      | ok ids =>
          rw [repetition, runListToFixedPoint, resolved]
          rfl
      | error error =>
          rw [resolved] at known
          cases known

/-- If it may make a call, or would if it might, a repetition is nothing but its rounds. -/
theorem repetition_comesTo {passes : Option (List String)} {cap : Nat}
    (calls : 0 < cap ∨ registry.knowsAll passes = true) (session : Session Instance World) :
    ∃ count verdict, ComesTo (round registry passes) session cap
      (session.repetition registry passes cap) count verdict := by
  cases known : registry.knowsAll passes with
  | true =>
      rw [repetition_of_known known]
      exact (repeated (round registry passes) 0 cap session).comesTo
  | false =>
      have positive : 0 < cap := by simpa [known] using calls
      obtain ⟨error, failing, same⟩ := repetition_of_unknown known cap session
      refine ⟨1, .error error, .of_decides (.failed positive (by simp) ?_) ?_ ?_⟩
      · rw [answerAt, called, failing]
      · rw [same]
        rfl
      · rw [same, called, called, failing]

theorem drive_fixedPoint (level : Level) (passes : Option (List String)) (cap : UInt64)
    (session : Session Instance World) :
    session.drive registry ⟨level, passes, .fixedPoint cap⟩ =
      ((session.repetition registry passes cap.toNat).1.map fun outcome =>
          (outcome.changed, some outcome),
        (session.repetition registry passes cap.toNat).2) := by
  cases passes <;> rfl

/-- The report has the trace that the calls leave, and the disjunction of their flags. -/
theorem ComesTo.optimize {level : Level} {passes : Option (List String)} {cap : UInt64}
    {world : World} {count : Nat} {verdict : Except ScheduleError Bool}
    (comes : ComesTo (round registry passes) (start registry level world) cap.toNat
      ((start registry level world).repetition registry passes cap.toNat) count verdict) :
    (optimize registry ⟨level, passes, .fixedPoint cap⟩ world).1 = verdict.map fun converged =>
      { changed := (flags (round registry passes) (start registry level world) count).any id
        fixedPoint := some ⟨count, converged⟩
        trace := (called (round registry passes) count (start registry level world)).trace } := by
  have traced := congrArg Session.trace comes.left
  simp only [unjournaled] at traced
  rw [PassScheduler.optimize, drive_fixedPoint, comes.answered]
  cases verdict with
  | error error => rfl
  | ok converged => simp only [Except.map, traced, comes.decides.flags_any]

/-- A repetition of rounds comes to what the rounds come to when they are called in a row, up to the
first that answers no change or fails, or up to the cap: the world, the validity, the instances and
the trace are those that these calls leave, an error is that of the last of them, and the repetition
has converged iff one of them has answered no change. The report of an optimisation has the
disjunction of their flags.

All this supposes that there is a call, or that there would be. If a name is unknown, the repetition
fails without a call even where its cap is zero, with the error of a call and with nothing done. -/
theorem repetition_eq_called (registry : Registry Instance) (passes : Option (List String)) :
    (∀ (cap : Nat) (session : Session Instance World),
      0 < cap ∨ registry.knowsAll passes = true → ∃ count verdict,
        ComesTo (round registry passes) session cap
          (session.repetition registry passes cap) count verdict) ∧
    (∀ (cap : Nat) (session : Session Instance World),
      registry.knowsAll passes = false → ∃ error,
        session.round registry passes = (.error error, session) ∧
          session.repetition registry passes cap = (.error error, session)) ∧
    ∀ (level : Level) (cap : UInt64) (world : World),
      let session := Session.start registry level world
      (0 < cap.toNat ∨ registry.knowsAll passes = true → ∃ count verdict,
        ComesTo (round registry passes) session cap.toNat
          (session.repetition registry passes cap.toNat) count verdict ∧
        (optimize registry ⟨level, passes, .fixedPoint cap⟩ world).1 = verdict.map fun converged =>
          { changed := (flags (round registry passes) session count).any id
            fixedPoint := some ⟨count, converged⟩
            trace := (called (round registry passes) count session).trace }) ∧
      (registry.knowsAll passes = false → ∃ error,
        session.round registry passes = (.error error, session) ∧
          (optimize registry ⟨level, passes, .fixedPoint cap⟩ world).1 = .error error) := by
  refine ⟨fun _ session calls => repetition_comesTo calls session,
    fun cap session unknown => repetition_of_unknown unknown cap session, fun level cap world => ?_⟩
  intro session
  refine ⟨fun calls => ?_, fun unknown => ?_⟩
  · obtain ⟨count, verdict, comes⟩ := repetition_comesTo calls session
    exact ⟨count, verdict, comes, comes.optimize⟩
  · obtain ⟨error, failing, same⟩ := repetition_of_unknown unknown cap.toNat session
    refine ⟨error, failing, ?_⟩
    rw [PassScheduler.optimize, drive_fixedPoint, same]
    rfl

end Session

/-- A pass that counts to two, and then has nothing to change. -/
structure Counter where

instance : Pass Counter Nat where
  run counter world :=
    if world < 2 then (.ok true, counter, world + 1) else (.ok false, counter, world)

namespace Counter

def registry : Registry Counter :=
  .ofPasses [⟨⟨.transformation "count", fun _ => ⟨⟩⟩, [], []⟩]

def session : Session Counter Nat :=
  .start registry 0 0

/-- The third call decides. A cap of two is one too low, and a name that is unknown is an error even
with a cap of zero. -/
theorem repetition_eq_called_counting :
    Session.ComesTo (Session.round registry none) session 5
        (session.repetition registry none 5) 3 (.ok true) ∧
      Session.ComesTo (Session.round registry (some ["count"])) session 2
        (session.repetition registry (some ["count"]) 2) 2 (.ok false) ∧
      (∃ error, session.round registry (some ["absent"]) = (.error error, session) ∧
        session.repetition registry (some ["absent"]) 0 = (.error error, session)) ∧
      (optimize registry ⟨0, none, .fixedPoint 5⟩ 0).1.map Report.changed = .ok true := by
  have ended : (session.repetition registry none 5).1 = .ok ⟨3, true⟩ := by decide +kernel
  have capped : (session.repetition registry (some ["count"]) 2).1 = .ok ⟨2, false⟩ := by
    decide +kernel
  obtain ⟨calls, _, optimizes⟩ := @Session.repetition_eq_called Counter Nat _ registry none
  obtain ⟨listed, _, _⟩ :=
    @Session.repetition_eq_called Counter Nat _ registry (some ["count"])
  obtain ⟨_, unknown, _⟩ :=
    @Session.repetition_eq_called Counter Nat _ registry (some ["absent"])
  refine ⟨?_, ?_, unknown 0 session (by decide), ?_⟩
  · obtain ⟨count, verdict, comes⟩ := calls 5 session (.inl (by decide))
    obtain ⟨rfl, rfl⟩ := comes.eq_of_answered ended
    exact comes
  · obtain ⟨count, verdict, comes⟩ := listed 2 session (.inl (by decide))
    obtain ⟨rfl, rfl⟩ := comes.eq_of_answered capped
    exact comes
  · obtain ⟨count, verdict, comes, reported⟩ := (optimizes 0 5 0).1 (.inl (by decide))
    obtain ⟨rfl, rfl⟩ := comes.eq_of_answered ended
    have changed : (Session.flags (Session.round registry none) session 3).any id = true := by
      decide +kernel
    rw [reported]
    exact congrArg Except.ok changed

end Counter

end PassScheduler
