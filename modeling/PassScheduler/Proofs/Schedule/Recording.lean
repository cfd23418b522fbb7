import PassScheduler.Proofs.Schedule.Course

/-!
Contract: nothing that was recorded is lost, except by being handed out.

Owns:
- that every request but the one for the trace leaves journal and trace as they were, with entries
  added and with the events of these entries added;
- the sessions that requests lead to, each with the events that were handed out on the way;
- that the events handed out and those still in the trace are together the events of the journal.

Does not own: which entries a request adds.
-/

namespace PassScheduler.Session

variable {Instance World : Type}

/-- The second session is the first with some entries added, to the journal and to the trace. -/
def Grown (before after : Session Instance World) : Prop :=
  ∃ entries, before.Records entries after

theorem Grown.refl (session : Session Instance World) : session.Grown session :=
  ⟨[], .refl session⟩

theorem Grown.trans {first second third : Session Instance World} (left : first.Grown second)
    (right : second.Grown third) :
    first.Grown third := by
  obtain ⟨entries, records⟩ := left
  obtain ⟨more, moreRecords⟩ := right
  exact ⟨_, records.trans moreRecords⟩

theorem Records.grown {before after : Session Instance World} {entries : List JournalEntry}
    (records : before.Records entries after) :
    before.Grown after :=
  ⟨entries, records⟩

variable [Pass Instance World] {registry : Registry Instance}

/-! ## One demand -/

theorem Executed.grown {session : Session Instance World} {id : PassId}
    {attempt : Attempt Instance World Bool} (executed : Executed registry session id attempt) :
    session.Grown attempt.2 := by
  obtain ⟨_, records, _⟩ := executed.records
  exact records.grown

theorem Met.grown {path pending : List PassId} {session : Session Instance World}
    {attempt : Attempt Instance World Unit} (met : Met registry path pending session attempt) :
    session.Grown attempt.2 := by
  induction met with
  | done => exact .refl _
  | @cached _ _ next session _ _ _ rest =>
      exact (session.records_cached (registry.name next)).grown.trans rest
  | circular => exact .refl _
  | tooDeep => exact .refl _
  | blocked _ _ _ _ above => exact above
  | failed _ _ _ _ executed above => exact above.trans executed.grown
  | ran _ _ _ _ executed _ above rest => exact (above.trans executed.grown).trans rest

theorem Demanded.grown {session : Session Instance World} {id : PassId}
    {attempt : Attempt Instance World Bool} (demanded : Demanded registry session id attempt) :
    session.Grown attempt.2 := by
  have opened : ∀ name, session.Grown (session.note (.demanded name)) :=
    fun name => (session.records_demanded name).grown
  cases demanded with
  | unknown => exact .refl session
  | @skipped descriptor => exact (opened _).trans (records_skipped _ descriptor).grown
  | @cached descriptor => exact (opened _).trans (records_cached _ descriptor.name).grown
  | blocked _ _ _ met => exact (opened _).trans met.grown
  | ran _ _ _ met executed => exact ((opened _).trans met.grown).trans executed.grown

theorem grown_demand (session : Session Instance World) (id : PassId) :
    session.Grown (session.demand registry id).2 :=
  (demanded registry session id).grown

/-! ## One request -/

omit [Pass Instance World] in
theorem Grown.andThen {α β : Type} {session : Session Instance World}
    {attempt : Attempt Instance World α}
    {next : α → Session Instance World → Attempt Instance World β} (grown : session.Grown attempt.2)
    (nextGrown : ∀ answer (between : Session Instance World),
      between.Grown (next answer between).2) :
    session.Grown (Session.andThen attempt next).2 := by
  obtain ⟨result, between⟩ := attempt
  cases result with
  | error error => exact grown
  | ok answer => exact grown.trans (nextGrown answer between)

theorem grown_demandAll (ids : List PassId) (session : Session Instance World) :
    session.Grown (demandAll registry ids session).2 := by
  induction ids generalizing session with
  | nil => exact .refl session
  | cons id ids inductionHypothesis =>
      rw [demandAll_cons]
      refine (grown_demand session id).andThen fun changed between => ?_
      exact (inductionHypothesis between).andThen fun more after => .refl after

/-- A run resets, demands some passes and tells of itself. -/
private theorem grown_run (ids : List PassId) (session : Session Instance World)
    {summary : Level → Bool → Notice}
    (silent : ∀ level changed, (summary level changed).event? = none) :
    session.Grown (tell summary (demandAll registry ids session.reset)).2 := by
  rw [tell_eq_andThen]
  refine session.records_reset.grown.trans ?_
  refine (grown_demandAll ids session.reset).andThen fun changed after => ?_
  exact (after.records_told (silent after.level changed)).grown

theorem grown_runOnce (session : Session Instance World) :
    session.Grown (session.runOnce registry).2 := by
  rw [runOnce_eq_tell]
  exact grown_run _ session fun _ _ => rfl

theorem grown_runList (names : List String) (session : Session Instance World) :
    session.Grown (session.runList registry names).2 := by
  cases resolved : registry.resolveNames names with
  | error error =>
      unfold runList
      rw [resolved]
      exact .refl session
  | ok ids =>
      rw [runList_eq_tell resolved]
      exact grown_run ids session fun _ _ => rfl

omit [Pass Instance World] in
theorem grown_repeatRun {run : Session Instance World → Attempt Instance World Bool}
    (each : ∀ session : Session Instance World, session.Grown (run session).2)
    (made remaining : Nat) (session : Session Instance World) :
    session.Grown (repeatRun run made remaining session).2 := by
  induction remaining generalizing made session with
  | zero =>
      have silent : (Notice.capReached made).event? = none := rfl
      exact (session.records_told silent).grown
  | succ remaining inductionHypothesis =>
      rw [repeatRun_succ]
      refine (each session).andThen fun changed after => ?_
      cases changed with
      | false =>
          have silent : (Notice.fixedPointReached (made + 1)).event? = none := rfl
          exact (after.records_told silent).grown
      | true => exact inductionHypothesis (made + 1) after

theorem grown_perform (session : Session Instance World) {request : Request}
    (kept : request ≠ .takeTrace) :
    session.Grown (session.perform registry request).2 := by
  cases request with
  | demandNamed name =>
      show session.Grown (session.demandNamed registry name).2
      unfold demandNamed
      cases registry.id? name with
      | none => exact .refl session
      | some id => exact grown_demand session id
  | demand id => exact grown_demand session id
  | runOnce => exact grown_runOnce session
  | runList names => exact grown_runList names session
  | runToFixedPoint cap => exact grown_repeatRun grown_runOnce 0 cap session
  | runListToFixedPoint names cap =>
      show session.Grown (session.runListToFixedPoint registry names cap).2
      unfold runListToFixedPoint
      cases registry.resolveNames names with
      | error error => exact .refl session
      | ok ids => exact grown_repeatRun (grown_runList names) 0 cap session
  | setLevel level => exact (session.records_setLevel level).grown
  | reset => exact session.records_reset.grown
  | takeTrace => exact absurd rfl kept

/-! ## What was handed out -/

/-- The events that the answer to a request hands out. -/
def handedOut : Except ScheduleError Answer → List Event
  | .ok (.trace trace) => trace.toList
  | _ => []

omit [Pass Instance World] in
private theorem handedOut_answering {α : Type} {wrap : α → Answer}
    (traceless : ∀ answer, handedOut (.ok (wrap answer)) = [])
    (attempt : Attempt Instance World α) :
    handedOut (answering wrap attempt).1 = [] := by
  obtain ⟨result, after⟩ := attempt
  cases result with
  | error error => rfl
  | ok answer => exact traceless answer

theorem handedOut_perform (session : Session Instance World) {request : Request}
    (kept : request ≠ .takeTrace) :
    handedOut (session.perform registry request).1 = [] := by
  have changed : ∀ attempt : Attempt Instance World Bool,
      handedOut (answering .changed attempt).1 = [] := handedOut_answering fun _ => rfl
  have repeated : ∀ attempt : Attempt Instance World FixedPoint,
      handedOut (answering .fixedPoint attempt).1 = [] := handedOut_answering fun _ => rfl
  cases request with
  | demandNamed | demand | runOnce | runList => exact changed _
  | runToFixedPoint | runListToFixedPoint => exact repeated _
  | setLevel => rfl
  | reset => rfl
  | takeTrace => exact absurd rfl kept

/-- The sessions that requests lead to, each on the world that it is handed, with the events that
were handed out on the way. -/
inductive Recorded (registry : Registry Instance) : List Event → Session Instance World → Prop where
  | start (level : Level) (world : World) : Recorded registry [] (start registry level world)
  | handed {out : List Event} {session : Session Instance World}
      (recorded : Recorded registry out session) (world : World) :
      Recorded registry out (session.handed world)
  | performed {out : List Event} {session : Session Instance World}
      (recorded : Recorded registry out session) (request : Request) :
      Recorded registry (out ++ handedOut (session.perform registry request).1)
        (session.perform registry request).2

namespace Recorded

variable {out : List Event} {session : Session Instance World}

/-- Only the request for the trace hands anything out. -/
theorem performed_of_ne (recorded : Recorded registry out session) {request : Request}
    (kept : request ≠ .takeTrace) :
    Recorded registry out (session.perform registry request).2 := by
  have after := recorded.performed request
  rwa [handedOut_perform session kept, List.append_nil] at after

theorem taken (recorded : Recorded registry out session) :
    Recorded registry (out ++ session.trace.toList) session.clearTrace :=
  recorded.performed .takeTrace

theorem reachable (recorded : Recorded registry out session) : Reachable registry session := by
  induction recorded with
  | start level world => exact .start level world
  | handed _ world inductionHypothesis => exact .handed inductionHypothesis world
  | performed _ request inductionHypothesis => exact .performed inductionHypothesis request

theorem events (recorded : Recorded registry out session) :
    out ++ session.trace.toList = session.history.filterMap JournalEntry.event? := by
  induction recorded with
  | start level world => rfl
  | handed _ world inductionHypothesis => exact inductionHypothesis
  | @performed out session _ request inductionHypothesis =>
      by_cases takes : request = .takeTrace
      · subst takes
        show (out ++ session.trace.toList) ++ Trace.empty.toList = _
        rw [Trace.toList_empty, List.append_nil]
        exact inductionHypothesis
      · obtain ⟨entries, records⟩ : session.Grown (session.perform registry request).2 :=
          grown_perform session takes
        rw [handedOut_perform session takes, List.append_nil, records.history, records.trace,
          List.filterMap_append, ← inductionHypothesis, List.append_assoc]

end Recorded

end PassScheduler.Session
