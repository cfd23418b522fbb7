import PassScheduler.Proofs.Pipeline.Driving
import PassScheduler.Proofs.Schedule.Changes
import PassScheduler.Proofs.Schedule.Freshness
import PassScheduler.Proofs.Standard.FixedPoint
import PassScheduler.Proofs.Standard.Outcome

/-!
Contract: the report of an optimisation tells a change iff there was one.

Three things are called a change: what the passes report, what the answers of demands, runs and
repetitions add up to, and what has become of the functions. Over the standard passes they agree,
because every reported change makes the program lighter and none ever makes it heavier.

Owns:
- what an answer accounts for: the functions, and the reported changes in the journal;
- that every answered demand accounts for both, and so does everything that is made of demands;
- that the report of an optimisation does.

Does not own: how an optimisation is driven.
-/

namespace PassScheduler.StandardPass

/-! ## Reported changes -/

/-- Some pass that ran has reported a change. -/
def Reported (entries : List JournalEntry) : Prop :=
  ∃ pass, .noticed (.ran pass true) ∈ entries

theorem reported_append {entries more : List JournalEntry} :
    Reported (entries ++ more) ↔ Reported entries ∨ Reported more := by
  simp only [Reported, List.mem_append, exists_or]

theorem not_reported_of_quiet {entries : List JournalEntry}
    (quiet : ∀ entry ∈ entries, entry.ran? = none) :
    ¬ Reported entries := by
  rintro ⟨pass, member⟩
  cases quiet _ member

section Demand

variable {session : Session StandardPass Program} {id : PassId}

theorem reported_of_executed {attempt : Attempt StandardPass Program Bool}
    (executed : Session.Executed standard session id attempt) :
    ∃ entries, session.Records entries attempt.2 ∧
      (Reported entries ↔ attempt.1 = .ok true) := by
  obtain ⟨entries, records, _, runs⟩ := executed.records
  refine ⟨entries, records, ?_⟩
  simp only [Reported, runs, exists_eq_left]

/-- An analysis reports no change. -/
theorem not_changed_of_analysis {attempt : Attempt StandardPass Program Bool}
    (bound : Bound session) (executed : Session.Executed standard session id attempt)
    (isAnalysis : id = verifyId ∨ id = livenessId) :
    attempt.1 ≠ .ok true := by
  intro succeeded
  have same := executed_analysis bound executed isAnalysis
  cases executed_progress bound executed succeeded with
  | lighter less => exact absurd (potential_congr same) less.ne

/-- No change is reported while prerequisites are met, because all of them are analyses. -/
theorem not_reported_of_met {path pending : List PassId}
    {attempt : Attempt StandardPass Program Unit}
    (met : Session.Met standard path pending session attempt) (bound : Bound session)
    (analyses : ∀ next ∈ pending, next = verifyId ∨ next = livenessId) :
    ∃ entries, session.Records entries attempt.2 ∧ ¬ Reported entries := by
  have required : ∀ {id}, ∀ next ∈ standard.requirements id, next = verifyId ∨ next = livenessId :=
    fun next requires => (requires_cases requires).1
  have nothing : ¬ Reported [] := not_reported_of_quiet (by simp)
  induction met with
  | done => exact ⟨[], .refl _, nothing⟩
  | circular => exact ⟨[], .refl _, nothing⟩
  | tooDeep => exact ⟨[], .refl _, nothing⟩
  | @cached path pending next session attempt _ _ inductionHypothesis =>
      obtain ⟨entries, records, quiet⟩ :=
        inductionHypothesis bound (List.forall_mem_cons.1 analyses).2
      refine ⟨_, (session.records_cached (standard.name next)).trans records, ?_⟩
      rw [reported_append]
      exact not_or.2 ⟨not_reported_of_quiet (by simp [JournalEntry.ran?]), quiet⟩
  | blocked _ _ _ _ above => exact above bound required
  | failed _ _ _ _ executed above =>
      obtain ⟨entries, records, quiet⟩ := above bound required
      obtain ⟨own, ownRecords, ownReported⟩ := reported_of_executed executed
      refine ⟨_, records.trans ownRecords, ?_⟩
      rw [reported_append, ownReported]
      exact not_or.2 ⟨quiet, by simp⟩
  | ran _ _ _ met executed _ above rest =>
      obtain ⟨isAnalysis, others⟩ := List.forall_mem_cons.1 analyses
      have between := bound.steps met.steps
      obtain ⟨entries, records, quiet⟩ := above bound required
      obtain ⟨own, ownRecords, ownReported⟩ := reported_of_executed executed
      obtain ⟨more, moreRecords, moreQuiet⟩ := rest (applied executed between).2 others
      refine ⟨_, (records.trans ownRecords).trans moreRecords, ?_⟩
      rw [reported_append, reported_append, ownReported]
      exact not_or.2 ⟨not_or.2 ⟨quiet, not_changed_of_analysis between executed isAnalysis⟩,
        moreQuiet⟩

/-- A demand answers with a change iff one is reported while it is met. -/
theorem reported_of_demand (bound : Bound session) {changed : Bool}
    (succeeded : (session.demand standard id).1 = .ok changed) :
    ∃ entries, session.Records entries (session.demand standard id).2 ∧
      (changed = true ↔ Reported entries) := by
  have demanded := Session.demanded standard session id
  generalize session.demand standard id = attempt at demanded succeeded
  cases demanded with
  | unknown => cases succeeded
  | blocked => cases succeeded
  | @skipped descriptor =>
      cases succeeded
      have opened := session.records_demanded descriptor.name
      refine ⟨_, opened.trans (Session.records_skipped _ descriptor), ?_⟩
      simp [Reported]
  | @cached descriptor =>
      cases succeeded
      have opened := session.records_demanded descriptor.name
      refine ⟨_, opened.trans (Session.records_cached _ descriptor.name), ?_⟩
      simp [Reported]
  | @ran descriptor between _ _ _ _ met executed =>
      have noted : Bound (session.note (.demanded descriptor.name)) := bound
      obtain ⟨entries, records, quiet⟩ :=
        not_reported_of_met met noted fun next requires => (requires_cases requires).1
      obtain ⟨own, ownRecords, ownReported⟩ := reported_of_executed executed
      have opened := session.records_demanded descriptor.name
      have isQuiet : ¬ Reported [.demanded descriptor.name] :=
        not_reported_of_quiet (by simp [JournalEntry.ran?])
      refine ⟨_, opened.trans (records.trans ownRecords), ?_⟩
      rw [reported_append, reported_append, ownReported, succeeded]
      simp [isQuiet, quiet]

end Demand

/-! ## Accounts -/

/-- From a vouched session, what was done has kept it vouched and at its level, and the flag tells
whether the functions have changed and whether a pass has reported so. -/
structure Accounted (before : Session StandardPass Program) (changed : Bool)
    (after : Session StandardPass Program) : Prop where
  vouched : Vouched after
  level : after.level = before.level
  progress : Progress before.world after.world changed
  reported : ∃ entries, before.Records entries after ∧ (changed = true ↔ Reported entries)

theorem Progress.changed_iff {before after : Program} {changed : Bool}
    (progress : Progress before after changed) :
    changed = true ↔ after.functions ≠ before.functions := by
  cases progress with
  | unchanged same => simp [same]
  | lighter less =>
      have differs : after.functions ≠ before.functions :=
        fun same => less.ne (potential_congr same)
      simp [differs]

namespace Accounted

variable {before between after : Session StandardPass Program}

/-- What leaves the program alone, and tells of no run, accounts for no change. -/
theorem of_records {entries : List JournalEntry} (vouched : Vouched after)
    (level : after.level = before.level) (world : after.world = before.world)
    (records : before.Records entries after) (quiet : ∀ entry ∈ entries, entry.ran? = none) :
    Accounted before false after where
  vouched := vouched
  level := level
  progress := .unchanged (congrArg Program.functions world)
  reported := by
    refine ⟨entries, records, ?_⟩
    simp [not_reported_of_quiet quiet]

theorem trans {earlier later : Bool} (first : Accounted before earlier between)
    (second : Accounted between later after) :
    Accounted before (earlier || later) after where
  vouched := second.vouched
  level := second.level.trans first.level
  progress := first.progress.trans second.progress
  reported := by
    obtain ⟨entries, records, reported⟩ := first.reported
    obtain ⟨more, moreRecords, moreReported⟩ := second.reported
    refine ⟨entries ++ more, records.trans moreRecords, ?_⟩
    rw [Bool.or_eq_true, reported_append, reported, moreReported]

end Accounted

theorem accounted_demand {session after : Session StandardPass Program} {id : PassId}
    {changed : Bool} (ended : session.demand standard id = (.ok changed, after))
    (vouched : Vouched session) :
    Accounted session changed after := by
  have demanded := Session.demanded standard session id
  have succeeded : (session.demand standard id).1 = .ok changed := by rw [ended]
  have isAfter : (session.demand standard id).2 = after := by rw [ended]
  rw [← isAfter]
  exact {
    vouched := vouched.steps demanded.steps
    level := demanded.level
    progress := demand_progress vouched.tracked.bound succeeded
    reported := reported_of_demand vouched.tracked.bound succeeded }

theorem accumulates_accounted :
    Session.Accumulates standard fun before changed after =>
      Vouched before → Accounted before changed after where
  refl session vouched := .of_records vouched rfl rfl (.refl session) (by simp)
  trans first second vouched := (first vouched).trans (second (first vouched).vouched)
  demand ended vouched := accounted_demand ended vouched
  reset session vouched :=
    .of_records (vouched.stepped (.reset session)) rfl rfl session.records_reset
      (by simp [JournalEntry.ran?])
  told session _ silent vouched :=
    .of_records (vouched.stepped (.told session silent)) rfl rfl (session.records_told silent)
      (by simp [JournalEntry.ran?_of_silent silent])

/-! ## Reports -/

/-- An answered optimisation reports a change iff the functions it leaves differ from those that it
was given, and iff the trace in the report tells of a run that has changed something. -/
theorem optimize_changed_iff {registry : Registry StandardPass}
    (built : StandardPass.registry = .ok registry) {config : PipelineConfig} {program : Program}
    {report : Report} {after : Session StandardPass Program}
    (succeeded : optimize registry config program = (.ok report, after)) :
    (report.changed = true ↔ after.world.functions ≠ program.functions) ∧
      (report.changed = true ↔ ∃ pass, ⟨pass, .ran true⟩ ∈ report.trace.toList) := by
  obtain rfl : standard = registry := Except.ok.inj (registry_eq.symm.trans built)
  obtain ⟨last, driven, isTrace, rfl⟩ := optimize_eq_ok succeeded
  have accounted := accumulates_accounted.drive driven (vouched_start config.level program)
  obtain ⟨entries, records, reported⟩ := accounted.reported
  have traced : report.trace.toList = entries.filterMap JournalEntry.event? := by
    rw [isTrace, records.trace]
    exact List.nil_append _
  refine ⟨accounted.progress.changed_iff, ?_⟩
  rw [reported, traced, Reported]
  simp only [List.mem_filterMap, JournalEntry.event?_eq_ran, exists_eq_right]

/-- One round changes the function, and a second one finds nothing to change. -/
theorem optimize_changed_iff_undecided :
    let config : PipelineConfig := { level := 2, mode := .fixedPoint 20 }
    let program := Program.ofFunctions [undecided]
    registry = .ok standard ∧ ∃ report after,
      optimize standard config program = (.ok report, after) ∧ report.changed = true ∧
        after.world.functions ≠ program.functions ∧
        ∃ pass, ⟨pass, .ran true⟩ ∈ report.trace.toList := by
  intro config program
  have answered : (optimize standard config program).1.toOption.map Report.changed =
      some true := by
    cbv
  cases ended : optimize standard config program with
  | mk result after =>
      rw [ended] at answered
      cases result with
      | error error => cases answered
      | ok report =>
          have changed : report.changed = true := Option.some.inj answered
          obtain ⟨differs, reported⟩ := optimize_changed_iff registry_eq ended
          exact ⟨registry_eq, report, after, rfl, changed, differs.1 changed, reported.1 changed⟩

end PassScheduler.StandardPass
