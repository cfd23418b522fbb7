import PassScheduler.Proofs.Standard.Outcome

/-!
Contract: a request that fails has changed no function.

A transformation runs only on functions that keep all rules, and leaves such functions. From there
on nothing fails, so whatever fails has failed before the first transformation.

Owns:
- attempts that fail without having touched a function, and that demands, runs and repetitions are
  such attempts;
- that the only errors are unknown passes and a broken rule that `verify` reports;
- that no pass fails any more once `verify` has run to its end.

Does not own: which broken rule is reported.
-/

open Relation (ReflTransGen)

namespace PassScheduler.StandardPass

/-! ## Guarded attempts -/

/-- An attempt that fails only on functions that break a rule, and leaves those as they are. If it
is answered, it has left the functions as they were, or they keep all rules. -/
structure Guarded {α : Type} (before : List Function) (attempt : Attempt StandardPass Program α) :
    Prop where
  failed : ∀ error, attempt.1 = .error error →
    attempt.2.world.functions = before ∧ firstViolation? [] before ≠ none
  answered : ∀ answer, attempt.1 = .ok answer →
    attempt.2.world.functions = before ∨ firstViolation? [] attempt.2.world.functions = none

namespace Guarded

variable {α β : Type} {before : List Function}

theorem of_same {answer : α} {after : Session StandardPass Program}
    (same : after.world.functions = before) :
    Guarded before ((.ok answer, after) : Attempt StandardPass Program α) where
  failed := by
    rintro error ⟨⟩
  answered _ _ := .inl same

/-- Attempts that are guarded one by one are so one after the other: where the first has changed
something, the second finds no broken rule. -/
theorem andThen {attempt : Attempt StandardPass Program α}
    {next : α → Session StandardPass Program → Attempt StandardPass Program β}
    (first : Guarded before attempt)
    (second : ∀ answer, Guarded attempt.2.world.functions (next answer attempt.2)) :
    Guarded before (Session.andThen attempt next) := by
  obtain ⟨result, between⟩ := attempt
  cases result with
  | error error =>
      refine ⟨fun _ _ => first.failed error rfl, ?_⟩
      rintro answer ⟨⟩
  | ok answer =>
      rcases first.answered answer rfl with same | unbroken
      · exact same ▸ second answer
      · refine ⟨fun error failed => ?_, fun last answered => .inr ?_⟩
        · exact absurd unbroken ((second answer).failed error failed).2
        · rcases (second answer).answered last answered with same | unbrokenAfter
          · exact same ▸ unbroken
          · exact unbrokenAfter

end Guarded

/-! ## Demands -/

theorem outcome_error {level : Level} {id : PassId} {functions : List Function}
    {error : ScheduleError} (failed : (outcome level id functions).1 = .error error) :
    (outcome level id functions).2 = functions ∧
      ((all[id]? = none ∧ ∃ name, error = .unknownPass name) ∨ Reports functions error) := by
  unfold outcome at failed ⊢
  split at failed
  · rename_i unknown
    exact ⟨rfl, .inl ⟨unknown, _, (Except.error.inj failed).symm⟩⟩
  · split at failed
    · rename_i enabled
      rw [if_pos enabled]
      cases found : firstViolation? [] functions with
      | none => simp [answer_of_unbroken found] at failed
      | some broken =>
          obtain ⟨function, violation⟩ := broken
          rw [answer_of_broken found] at failed ⊢
          exact ⟨rfl, .inr ⟨function, violation, found, (Except.error.inj failed).symm⟩⟩
    · cases failed

theorem outcome_functions_of_broken {level : Level} {id : PassId} {functions : List Function}
    (broken : firstViolation? [] functions ≠ none) :
    (outcome level id functions).2 = functions := by
  obtain ⟨⟨function, violation⟩, found⟩ := Option.ne_none_iff_exists'.1 broken
  unfold outcome
  cases all[id]? with
  | none => rfl
  | some runner =>
      dsimp only
      split
      · rw [answer_of_broken found]
      · rfl

namespace Vouched

variable {session : Session StandardPass Program}

theorem sound (vouched : Vouched session)
    (unbroken : firstViolation? [] session.world.functions = none) :
    Sound session :=
  ⟨vouched.tracked, unbroken⟩

theorem error_of_demand (vouched : Vouched session) {id : PassId} {error : ScheduleError}
    (failed : (session.demand standard id).1 = .error error) :
    (session.demand standard id).2.world.functions = session.world.functions ∧
      ((all[id]? = none ∧ ∃ name, error = .unknownPass name) ∨
        Reports session.world.functions error) := by
  have isOutcome := vouched.demand_outcome id
  have isAnswer : (session.demand standard id).1 =
      (outcome session.level id session.world.functions).1 := congrArg Prod.fst isOutcome
  have isLeft : (session.demand standard id).2.world.functions =
      (outcome session.level id session.world.functions).2 := congrArg Prod.snd isOutcome
  rw [isLeft]
  exact outcome_error (isAnswer ▸ failed)

theorem guarded_demand (vouched : Vouched session) {id : PassId} (inside : id < standard.size) :
    Guarded session.world.functions (session.demand standard id) := by
  constructor
  · intro error failed
    obtain ⟨same, ⟨unknown, _⟩ | ⟨_, _, broken, _⟩⟩ := vouched.error_of_demand failed
    · exact absurd (List.getElem?_eq_none_iff.1 unknown) (Nat.not_le.2 inside)
    · exact ⟨same, by simp [broken]⟩
  · intro changed _
    cases found : firstViolation? [] session.world.functions with
    | none =>
        have steps := (Session.demanded standard session id).steps
        exact .inr ((vouched.sound found).steps steps).unbroken
    | some broken =>
        have isLeft : (session.demand standard id).2.world.functions =
            (outcome session.level id session.world.functions).2 :=
          congrArg Prod.snd (vouched.demand_outcome id)
        rw [isLeft]
        exact .inl (outcome_functions_of_broken (by simp [found]))

theorem guarded_demandAll {ids : List PassId} (inside : ∀ id ∈ ids, id < standard.size)
    (vouched : Vouched session) :
    Guarded session.world.functions (Session.demandAll standard ids session) := by
  induction ids generalizing session with
  | nil => exact .of_same rfl
  | cons id rest inductionHypothesis =>
      obtain ⟨isInside, others⟩ := List.forall_mem_cons.1 inside
      have between := vouched.steps (Session.demanded standard session id).steps
      rw [Session.demandAll_cons]
      refine (vouched.guarded_demand isInside).andThen fun changed => ?_
      exact (inductionHypothesis others between).andThen fun more => .of_same rfl

/-! ## Requests -/

/-- A run that resets, demands some passes and tells of itself. -/
theorem guarded_run {ids : List PassId} (inside : ∀ id ∈ ids, id < standard.size)
    (vouched : Vouched session) (summary : Level → Bool → Notice) :
    Guarded session.world.functions
      (Session.tell summary (Session.demandAll standard ids session.reset)) := by
  rw [Session.tell_eq_andThen]
  refine (guarded_demandAll inside (vouched.stepped (.reset session))).andThen fun changed => ?_
  exact .of_same rfl

theorem guarded_runOnce (vouched : Vouched session) :
    Guarded session.world.functions (session.runOnce standard) := by
  have inside : ∀ id ∈ standard.candidates session.level, id < standard.size :=
    fun id isCandidate => List.mem_range.1 (List.mem_filter.1 isCandidate).1
  rw [Session.runOnce_eq_tell]
  exact guarded_run inside vouched .runFinished

end Vouched

theorem resolveNames_inside {names : List String} {ids : List PassId}
    (resolved : standard.resolveNames names = .ok ids) :
    ∀ id ∈ ids, id < standard.size := by
  induction names generalizing ids with
  | nil =>
      cases resolved
      simp
  | cons name rest inductionHypothesis =>
      unfold Registry.resolveNames at resolved
      cases found : standard.id? name with
      | none => simp [found] at resolved
      | some id =>
          cases others : standard.resolveNames rest with
          | error error => simp [found, others, Except.map] at resolved
          | ok more =>
              simp only [found, others, Except.map, Except.ok.injEq] at resolved
              subst resolved
              have isInside : id < standard.size := (List.findIdx?_eq_some_iff_getElem.1 found).1
              exact List.forall_mem_cons.2 ⟨isInside, inductionHypothesis others⟩

namespace Vouched

variable {session : Session StandardPass Program}

theorem guarded_runList {names : List String} {ids : List PassId}
    (resolved : standard.resolveNames names = .ok ids) (vouched : Vouched session) :
    Guarded session.world.functions (Session.runList standard names session) := by
  rw [Session.runList_eq_tell resolved]
  exact guarded_run (resolveNames_inside resolved) vouched _

theorem guarded_repeatRun
    {run : Session StandardPass Program → Attempt StandardPass Program Bool}
    (follows : ∀ session, Session.Follows standard session (run session))
    (guarded : ∀ session, Vouched session → Guarded session.world.functions (run session))
    (vouched : Vouched session) (made remaining : Nat) :
    Guarded session.world.functions (Session.repeatRun run made remaining session) := by
  induction remaining generalizing made session with
  | zero => exact .of_same rfl
  | succ remaining inductionHypothesis =>
      have between := vouched.steps (Session.steps_of_moves (follows session).moves)
      rw [Session.repeatRun_succ]
      refine (guarded session vouched).andThen fun changed => ?_
      cases changed with
      | false => exact .of_same rfl
      | true => exact inductionHypothesis between (made + 1)

/-- A request that fails leaves the functions as they were. -/
theorem functions_of_failed (vouched : Vouched session) {request : Request} {error : ScheduleError}
    (failed : (session.perform standard request).1 = .error error) :
    (session.perform standard request).2.world.functions = session.world.functions := by
  have unwrapped : ∀ {α : Type} {wrap : α → Answer} {attempt : Attempt StandardPass Program α},
      (Session.answering wrap attempt).1 = .error error → attempt.1 = .error error := by
    rintro α wrap ⟨result, after⟩ failed
    cases result with
    | error reason => exact congrArg Except.error (Except.error.inj failed)
    | ok answer => cases failed
  cases request with
  | demandNamed name =>
      have failedDemand := unwrapped failed
      show (session.demandNamed standard name).2.world.functions = _
      unfold Session.demandNamed at failedDemand ⊢
      cases found : standard.id? name with
      | none => rfl
      | some id =>
          rw [found] at failedDemand
          exact (vouched.error_of_demand failedDemand).1
  | demand id => exact (vouched.error_of_demand (unwrapped failed)).1
  | runOnce => exact (vouched.guarded_runOnce.failed error (unwrapped failed)).1
  | runList names =>
      cases resolved : standard.resolveNames names with
      | ok ids => exact ((vouched.guarded_runList resolved).failed error (unwrapped failed)).1
      | error reason =>
          show (Session.runList standard names session).2.world.functions = _
          unfold Session.runList
          rw [resolved]
  | runToFixedPoint cap =>
      have repeated := vouched.guarded_repeatRun Session.follows_runOnce
        (fun _ vouched => vouched.guarded_runOnce) 0 cap
      exact (repeated.failed error (unwrapped failed)).1
  | runListToFixedPoint names cap =>
      have failedRuns := unwrapped failed
      show (session.runListToFixedPoint standard names cap).2.world.functions = _
      unfold Session.runListToFixedPoint at failedRuns ⊢
      cases resolved : standard.resolveNames names with
      | error reason => rfl
      | ok ids =>
          rw [resolved] at failedRuns
          have repeated := vouched.guarded_repeatRun (Session.follows_runList names)
            (fun _ vouched => vouched.guarded_runList resolved) 0 cap
          exact (repeated.failed error failedRuns).1
  | setLevel level => cases failed
  | reset => cases failed
  | takeTrace => cases failed

/-- An error of a request is an unknown pass or a broken rule. -/
theorem error_of_perform (vouched : Vouched session) {request : Request} {error : ScheduleError}
    (failed : (session.perform standard request).1 = .error error) :
    (∃ name, error = .unknownPass name) ∨ ∃ functions, Reports functions error := by
  cases (Session.follows_perform session request).origin error failed with
  | name name => exact .inl ⟨name, rfl⟩
  | @demand before id _ moves failedDemand =>
      have vouchedBefore := vouched.steps (Session.steps_of_moves moves)
      rcases (vouchedBefore.error_of_demand failedDemand).2 with ⟨_, unknown⟩ | reports
      · exact .inl unknown
      · exact .inr ⟨before.world.functions, reports⟩

end Vouched

/-! ## Verified programs -/

theorem Sound.perform_ne_passFailed {session : Session StandardPass Program} (sound : Sound session)
    (request : Request) (pass : String) (cause : PassError) :
    (session.perform standard request).1 ≠ .error (.passFailed pass cause) := by
  intro failed
  cases Session.cause_of_perform failed with
  | execution steps executed => exact (sound.steps steps).not_failed executed

/-- The journal tells of a completed run of `verify`. -/
def HasVerified (session : Session StandardPass Program) : Prop :=
  ∃ changed, .noticed (.ran verify.name changed) ∈ session.history

/-- Once `verify` has run to its end the functions keep all rules. -/
structure Approved (session : Session StandardPass Program) : Prop where
  vouched : Vouched session
  unbroken : HasVerified session → firstViolation? [] session.world.functions = none

theorem eq_verify_of_name {id : PassId} {runner : StandardPass} (isPass : all[id]? = some runner)
    (named : verify.name = standard.name id) :
    runner = verify := by
  rw [name_eq isPass] at named
  cases runner <;> first | rfl | exact absurd named (by decide)

namespace Approved

variable {before after : Session StandardPass Program}

/-- Entries that tell of no run approve of nothing. -/
private theorem of_silent {entry : JournalEntry} (approved : Approved before)
    (vouched : Vouched after) (records : before.Records [entry] after) (silent : entry.ran? = none)
    (same : after.world.functions = before.world.functions) :
    Approved after := by
  refine ⟨vouched, ?_⟩
  rintro ⟨changed, member⟩
  rw [same]
  rw [records.history] at member
  rcases List.mem_append.1 member with isOld | isNew
  · exact approved.unbroken ⟨changed, isOld⟩
  · rw [← List.mem_singleton.1 isNew] at silent
    cases silent

theorem stepped (approved : Approved before) (stepped : Session.Step standard before after) :
    Approved after := by
  have vouched := approved.vouched.stepped stepped
  cases stepped with
  | @executed id attempt executed =>
      obtain ⟨entries, records, _, onlyRun⟩ := executed.records
      refine ⟨vouched, ?_⟩
      rintro ⟨changed, member⟩
      rw [records.history] at member
      rcases List.mem_append.1 member with isOld | isNew
      · have sound := approved.vouched.sound (approved.unbroken ⟨changed, isOld⟩)
        exact (sound.stepped (.executed executed)).unbroken
      · obtain ⟨named, succeeded⟩ := (onlyRun _ _).1 isNew
        cases (applied executed approved.vouched.tracked.bound).1 with
        | refused => cases succeeded
        | failed => cases succeeded
        | ran isPass _ ran =>
            obtain rfl := eq_verify_of_name isPass named
            exact (runVerify_ok ran).1
  | demanded pass => exact approved.of_silent vouched (before.records_demanded pass) rfl rfl
  | skipped descriptor =>
      exact approved.of_silent vouched (before.records_skipped descriptor) rfl rfl
  | @cached id => exact approved.of_silent vouched (before.records_cached _) rfl rfl
  | reset => exact approved.of_silent vouched before.records_reset rfl rfl
  | setLevel level => exact approved.of_silent vouched (before.records_setLevel level) rfl rfl
  | @told notice silent =>
      refine approved.of_silent vouched (before.records_told silent) ?_ rfl
      cases notice <;> first | rfl | cases silent
  | clearTrace => exact ⟨vouched, approved.unbroken⟩

end Approved

theorem approved_start (level : Level) (program : Program) :
    Approved (.start standard level program) := by
  refine ⟨vouched_start level program, ?_⟩
  rintro ⟨changed, member⟩
  cases member

/-- A request to a session over the standard passes that fails leaves the functions as they were.
It fails with an unknown pass, or with a broken rule that `verify` reports; and not with the latter
once `verify` has run to its end, or where it would. -/
theorem perform_failure {registry : Registry StandardPass}
    (built : StandardPass.registry = .ok registry) (level : Level) (program : Program)
    (requests : List Request) (request : Request) :
    let session := (Session.start registry level program).performAll registry requests
    let attempt := session.perform registry request
    (∀ error, attempt.1 = .error error →
        attempt.2.world.functions = session.world.functions ∧
          ((∃ name, error = .unknownPass name) ∨
            ∃ function message,
              error = .passFailed verify.name (.malformed function message))) ∧
      (HasVerified session ∨ (verify.apply session.world).1 = .ok false →
        ∀ pass cause, attempt.1 ≠ .error (.passFailed pass cause)) := by
  obtain rfl : standard = registry := Except.ok.inj (registry_eq.symm.trans built)
  intro session attempt
  have steps : ReflTransGen (Session.Step standard) (.start standard level program) session :=
    Session.steps_of_moves (Session.moves_performAll _ requests)
  have approved : Approved session :=
    Session.kept_of_steps steps (fun _ _ stepped held => held.stepped stepped)
      (approved_start level program)
  constructor
  · intro error failed
    refine ⟨approved.vouched.functions_of_failed failed, ?_⟩
    rcases approved.vouched.error_of_perform failed with unknown | ⟨_, function, violation, _, rfl⟩
    · exact .inl unknown
    · exact .inr ⟨function, violation.message, rfl⟩
  · intro isVerified
    have unbroken : firstViolation? [] session.world.functions = none := by
      rcases isVerified with hasVerified | verified
      · exact approved.unbroken hasVerified
      · exact firstViolation?_of_verified verified
    exact (approved.vouched.sound unbroken).perform_ne_passFailed request

theorem perform_failure_countdown :
    let twice := Session.start standard 2 (Program.ofFunctions [countdown, countdown])
    let verified := (Session.start standard 2 (Program.ofFunctions [countdown])).performAll standard
      [.demandNamed verify.name]
    registry = .ok standard ∧
      (twice.perform standard (.demand 5)).1 =
        .error (.passFailed "verify" (.malformed "main" "function defined more than once")) ∧
      (twice.perform standard (.demand 5)).2.world.functions = [countdown, countdown] ∧
      HasVerified verified ∧
      ∀ pass cause, (verified.perform standard .runOnce).1 ≠ .error (.passFailed pass cause) := by
  intro twice verified
  have broken : firstViolation? [] [countdown, countdown] = some ("main", .repeatedFunction) := by
    cbv
  have isAnswer : (twice.demand standard 5).1 = (deadCodeElim.answer [countdown, countdown]).1 :=
    congrArg Prod.fst ((vouched_start 2 _).demand_answer rfl (by decide))
  rw [answer_of_broken broken] at isAnswer
  have failed : (twice.perform standard (.demand 5)).1 =
      .error (.passFailed "verify" (.malformed "main" "function defined more than once")) :=
    congrArg (Except.map Answer.changed) isAnswer
  have history : (Session.performAll standard (.start standard 2 (Program.ofFunctions [countdown]))
      [.demandNamed verify.name]).history = [.demanded "verify", .created ⟨"verify", 2⟩,
        .entered ⟨"verify", 2⟩, .noticed (.ran "verify" false)] := by
    cbv
  have hasVerified : HasVerified verified := by
    refine ⟨false, ?_⟩
    rw [history]
    simp [name]
  have same := (perform_failure registry_eq 2 (Program.ofFunctions [countdown, countdown]) []
    (.demand 5)).1 _ failed
  have never := (perform_failure registry_eq 2 (Program.ofFunctions [countdown])
    [.demandNamed verify.name] .runOnce).2 (.inl hasVerified)
  exact ⟨registry_eq, failed, same.1, hasVerified, never⟩

end PassScheduler.StandardPass
