import Mathlib.Data.List.Permutation
import PassScheduler.Proofs.Schedule.Course

/-!
Contract: what the answer of a run says about the changes that were reported during it.

The journal of a run falls into one segment for each pass that it demands. The answer is the
disjunction of what the demanded passes reported when they ran, each in its own segment; a change
that a pass reports which only runs on behalf of another one is not in it.

Owns:
- segments, and the one that a demand adds;
- the exact condition on which the answer tells whether any change was reported;
- a run that answers with no change although one was reported.

Does not own: how often a run is repeated because of its answer.
-/

namespace PassScheduler

/-- What the demand of one pass adds to the journal after its opening. -/
structure Segment where
  root : PassId
  entries : List JournalEntry

namespace Segment

variable {Instance : Type}

def journal (registry : Registry Instance) (segment : Segment) : List JournalEntry :=
  .demanded (registry.name segment.root) :: segment.entries

def events (segment : Segment) : List Event :=
  segment.entries.filterMap JournalEntry.event?

/-- The demanded pass itself ran and reported a change. -/
def RootChanged (registry : Registry Instance) (segment : Segment) : Prop :=
  ⟨registry.name segment.root, .ran true⟩ ∈ segment.events

end Segment

theorem JournalEntry.event?_eq_ran {entry : JournalEntry} {pass : String} {changed : Bool} :
    entry.event? = some ⟨pass, .ran changed⟩ ↔ entry = .noticed (.ran pass changed) := by
  cases entry with
  | noticed notice => cases notice <;> simp [event?, Notice.event?]
  | _ => simp [event?]

namespace Session

variable {Instance World : Type} [Pass Instance World] {registry : Registry Instance}

/-- No pass on a path runs while prerequisites are met for its first pass. -/
theorem Met.records_offPath {path pending : List PassId} {session : Session Instance World}
    {attempt : Attempt Instance World Unit} (met : Met registry path pending session attempt)
    (accepted : registry.Accepted) :
    ∃ entries, session.Records entries attempt.2 ∧ (∀ entry ∈ entries, entry.demanded? = none) ∧
      ∀ id ∈ path, id < registry.size → ∀ changed,
        .noticed (.ran (registry.name id) changed) ∉ entries := by
  induction met with
  | done => exact ⟨[], .refl _, by simp, by simp⟩
  | circular => exact ⟨[], .refl _, by simp, by simp⟩
  | tooDeep => exact ⟨[], .refl _, by simp, by simp⟩
  | @cached path pending next session attempt _ _ inductionHypothesis =>
      obtain ⟨entries, records, inDemand, offPath⟩ := inductionHypothesis
      refine ⟨_, (session.records_cached (registry.name next)).trans records, ?_, ?_⟩
      · exact List.forall_mem_append.2 ⟨by simp [JournalEntry.demanded?], inDemand⟩
      · intro id onPath inside changed
        simpa using offPath id onPath inside changed
  | blocked _ _ _ _ above =>
      obtain ⟨entries, records, inDemand, offPath⟩ := above
      exact ⟨entries, records, inDemand,
        fun id onPath => offPath id (List.mem_cons_of_mem _ onPath)⟩
  | failed _ _ _ _ executed above =>
      obtain ⟨entries, records, inDemand, offPath⟩ := above
      obtain ⟨own, ownRecords, ownInDemand, runs⟩ := executed.records
      refine ⟨_, records.trans ownRecords, List.forall_mem_append.2 ⟨inDemand, ownInDemand⟩, ?_⟩
      intro id onPath inside changed
      have notAbove := offPath id (List.mem_cons_of_mem _ onPath) inside changed
      simp [notAbove, runs]
  | @ran path pending next flag session between after attempt _ nextOffPath _ _ executed _ above
      rest =>
      obtain ⟨entries, records, inDemand, offPath⟩ := above
      obtain ⟨own, ownRecords, ownInDemand, runs⟩ := executed.records
      obtain ⟨more, moreRecords, moreInDemand, moreOffPath⟩ := rest
      have bothInDemand := List.forall_mem_append.2 ⟨inDemand, ownInDemand⟩
      refine ⟨_, (records.trans ownRecords).trans moreRecords,
        List.forall_mem_append.2 ⟨bothInDemand, moreInDemand⟩, ?_⟩
      intro id onPath inside changed
      have notAbove := offPath id (List.mem_cons_of_mem _ onPath) inside changed
      have notLater := moreOffPath id onPath inside changed
      have notOwn : .noticed (.ran (registry.name id) changed) ∉ own := by
        intro member
        have sameName := ((runs _ _).1 member).1
        obtain rfl := accepted.resolved.name_injective inside (executed.inside_of_ok rfl) sameName
        exact nextOffPath onPath
      simp [notAbove, notOwn, notLater]

/-- A demand that succeeds adds one segment, and answers whether its root changed anything. -/
theorem Demanded.segment {session : Session Instance World} {id : PassId} {changed : Bool}
    {attempt : Attempt Instance World Bool} (demanded : Demanded registry session id attempt)
    (accepted : registry.Accepted) (succeeded : attempt.1 = .ok changed) :
    ∃ segment : Segment, segment.root = id ∧ session.Records (segment.journal registry) attempt.2 ∧
      (∀ entry ∈ segment.entries, entry.demanded? = none) ∧
      (changed = true ↔ segment.RootChanged registry) := by
  have opening := session.records_demanded (registry.name id)
  have named : ∀ {descriptor : Descriptor}, registry.descriptor? id = some descriptor →
      descriptor.name = registry.name id := by
    intro descriptor found
    simp [Registry.name, found]
  cases demanded with
  | unknown => cases succeeded
  | blocked => cases succeeded
  | @skipped descriptor found =>
      cases succeeded
      rw [named found]
      have skipped := records_skipped (session.note (.demanded (registry.name id))) descriptor
      refine ⟨⟨id, _⟩, rfl, opening.trans skipped, by simp [JournalEntry.demanded?], ?_⟩
      simp [Segment.RootChanged, Segment.events, JournalEntry.event?, Notice.event?]
  | @cached descriptor found =>
      cases succeeded
      rw [named found]
      have cached := records_cached (session.note (.demanded (registry.name id))) (registry.name id)
      refine ⟨⟨id, _⟩, rfl, opening.trans cached, by simp [JournalEntry.demanded?], ?_⟩
      simp [Segment.RootChanged, Segment.events, JournalEntry.event?, Notice.event?]
  | ran found _ _ met executed =>
      rw [named found] at met
      obtain ⟨entries, records, inDemand, offPath⟩ := met.records_offPath accepted
      obtain ⟨own, ownRecords, ownInDemand, runs⟩ := executed.records
      refine ⟨⟨id, entries ++ own⟩, rfl, opening.trans (records.trans ownRecords),
        List.forall_mem_append.2 ⟨inDemand, ownInDemand⟩, ?_⟩
      have notBefore := offPath id (by simp) (executed.inside_of_ok succeeded) true
      simp only [Segment.RootChanged, Segment.events, List.mem_filterMap,
        JournalEntry.event?_eq_ran, exists_eq_right, List.mem_append, notBefore, runs, succeeded,
        true_and, false_or, Except.ok.injEq]

/-- The segments of some demands, one for each and in their order. -/
structure Divided (roots : List PassId) (segments : List Segment) : Prop where
  roots : segments.map Segment.root = roots
  inDemand : ∀ segment ∈ segments, ∀ entry ∈ segment.entries, entry.demanded? = none

theorem demandAll_segments (accepted : registry.Accepted) {ids : List PassId}
    {session after : Session Instance World} {changed : Bool}
    (ended : demandAll registry ids session = (.ok changed, after)) :
    ∃ segments, Divided ids segments ∧
      session.Records (segments.flatMap (Segment.journal registry)) after ∧
      (changed = true ↔ ∃ segment ∈ segments, segment.RootChanged registry) := by
  induction ids generalizing session changed with
  | nil =>
      cases ended
      exact ⟨[], ⟨rfl, by simp⟩, .refl _, by simp⟩
  | cons id ids inductionHypothesis =>
      rw [demandAll_cons] at ended
      obtain ⟨own, between, met, ended⟩ := andThen_eq_ok.1 ended
      obtain ⟨more, last, others, ended⟩ := andThen_eq_ok.1 ended
      cases ended
      have first := demanded registry session id
      rw [met] at first
      obtain ⟨segment, root, records, inDemand, ownChanged⟩ := first.segment accepted rfl
      obtain ⟨segments, divided, moreRecords, moreChanged⟩ := inductionHypothesis others
      refine ⟨segment :: segments, ⟨?_, ?_⟩, records.trans moreRecords, ?_⟩
      · rw [List.map_cons, root, divided.roots]
      · exact List.forall_mem_cons.2 ⟨inDemand, divided.inDemand⟩
      · rw [Bool.or_eq_true, ownChanged, moreChanged, List.exists_mem_cons_iff]

/-- The passes that a run of a session demands, in order. -/
def roots? (registry : Registry Instance) (session : Session Instance World) :
    Request → Option (List PassId)
  | .runOnce => some (registry.candidates session.level)
  | .runList names => (registry.resolveNames names).toOption
  | _ => none

omit [Pass Instance World] in
private theorem changed_of_answering {attempt : Attempt Instance World Bool} {changed : Bool}
    {after : Session Instance World}
    (succeeded : answering .changed attempt = (.ok (.changed changed), after)) :
    attempt = (.ok changed, after) := by
  obtain ⟨result, last⟩ := attempt
  simp only [answering, Prod.mk.injEq] at succeeded
  cases result with
  | error error => cases succeeded.1
  | ok flag =>
      obtain ⟨sameFlag, rfl⟩ := succeeded
      cases sameFlag
      rfl

/-- A run that succeeds is a reset, the demands of its passes, and a notice of the outcome. -/
private theorem run_ended {session after : Session Instance World} {request : Request}
    {roots : List PassId} {changed : Bool} (isRun : roots? registry session request = some roots)
    (succeeded : session.perform registry request = (.ok (.changed changed), after)) :
    ∃ last summary, demandAll registry roots session.reset = (.ok changed, last) ∧
      summary.event? = none ∧ after = last.notice summary := by
  cases request with
  | runOnce =>
      obtain rfl : registry.candidates session.level = roots := Option.some.inj isRun
      have ran := changed_of_answering succeeded
      rw [runOnce_eq_tell] at ran
      obtain ⟨last, ended, isAfter⟩ := tell_eq_ok.1 ran
      exact ⟨last, _, ended, rfl, isAfter⟩
  | runList names =>
      have ran := changed_of_answering succeeded
      cases resolved : registry.resolveNames names with
      | error error => simp [roots?, resolved, Except.toOption] at isRun
      | ok ids =>
          simp only [roots?, resolved, Except.toOption, Option.some.injEq] at isRun
          subst isRun
          rw [runList_eq_tell resolved] at ran
          obtain ⟨last, ended, isAfter⟩ := tell_eq_ok.1 ran
          exact ⟨last, _, ended, rfl, isAfter⟩
  | _ => cases isRun

private theorem events_of_journal (segments : List Segment) :
    (segments.flatMap (Segment.journal registry)).filterMap JournalEntry.event? =
      segments.flatMap Segment.events := by
  rw [List.filterMap_flatMap]
  rfl

/-- The answer of a run tells whether a demanded pass reported a change. It tells whether any pass
did iff no change was reported only by passes that ran on behalf of others. -/
theorem perform_run_changed (accepted : registry.Accepted)
    {session after : Session Instance World} {request : Request} {roots : List PassId}
    {changed : Bool} (isRun : roots? registry session request = some roots)
    (succeeded : session.perform registry request = (.ok (.changed changed), after)) :
    ∃ segments summary, Divided roots segments ∧
      after.history = session.history ++ .reset :: segments.flatMap (Segment.journal registry) ++
        [.noticed summary] ∧
      after.trace.toList = session.trace.toList ++ segments.flatMap Segment.events ∧
      (changed = true ↔ ∃ segment ∈ segments, segment.RootChanged registry) ∧
      ((changed = true ↔ ∃ pass, ⟨pass, .ran true⟩ ∈ segments.flatMap Segment.events) ↔
        ((∃ pass, ⟨pass, .ran true⟩ ∈ segments.flatMap Segment.events) →
          ∃ segment ∈ segments, segment.RootChanged registry)) := by
  obtain ⟨last, summary, ended, silent, rfl⟩ := run_ended isRun succeeded
  obtain ⟨segments, divided, records, rootChanged⟩ := demandAll_segments accepted ended
  have whole := (session.records_reset.trans records).trans (last.records_told silent)
  refine ⟨segments, summary, divided, ?_, ?_, rootChanged, ?_⟩
  · rw [whole.history]
    simp
  · rw [whole.trace, List.filterMap_append, List.filterMap_append, events_of_journal]
    simp [JournalEntry.event?, silent]
  · have reported : (∃ segment ∈ segments, segment.RootChanged registry) →
        ∃ pass, ⟨pass, .ran true⟩ ∈ segments.flatMap Segment.events := by
      rintro ⟨segment, member, own⟩
      exact ⟨_, List.mem_flatMap.2 ⟨segment, member, own⟩⟩
    rw [rootChanged]
    constructor
    · intro same some
      exact same.2 some
    · intro noneLost
      exact ⟨reported, noneLost⟩

end Session

/-! ## A lost change -/

/-- A pass that always reports the same. -/
structure Reporter where
  changed : Bool

instance : Pass Reporter Unit where
  run reporter world := (.ok reporter.changed, reporter, world)

namespace Reporter

/-- A pass that changes something, and one that requires it and changes nothing itself. -/
def passes : List (ResolvedPass Reporter) :=
  [⟨⟨.transformation "tidy", fun _ => ⟨true⟩⟩, [], []⟩,
    ⟨⟨(Descriptor.transformation "check").requiring "tidy", fun _ => ⟨false⟩⟩, [0], []⟩]

private theorem fault?_passes : (Registry.ofPasses passes).fault? = none := by
  cbv

theorem accepted : (Registry.ofPasses passes).Accepted := by
  let registrations : Registrations Reporter := ⟨passes.map ResolvedPass.toRegistration⟩
  have first : Registrations.empty.register (.transformation "tidy") (fun _ => Reporter.mk true) =
      .ok ⟨[⟨.transformation "tidy", fun _ => ⟨true⟩⟩]⟩ := rfl
  have registered : registrations.Registered :=
    .register ((Descriptor.transformation "check").requiring "tidy") (fun _ => ⟨false⟩)
      (.register _ _ .empty first) rfl
  exact ⟨registrations, registered, Registry.build_of_resolved rfl fault?_passes⟩

def session : Session Reporter Unit :=
  .start (.ofPasses passes) 0 ()

/-- What becomes of the session when only the second pass is asked for. -/
def listed : Attempt Reporter Unit Answer :=
  session.perform (.ofPasses passes) (.runList ["check"])

theorem perform_run_changed_listed :
    (Registry.ofPasses passes).Accepted ∧
      Session.roots? (.ofPasses passes) session (.runList ["check"]) = some [1] ∧
      listed = (.ok (.changed false), listed.2) ∧
      ∃ segments, Session.Divided [1] segments ∧
        listed.2.trace.toList = segments.flatMap Segment.events ∧
        ¬ ∃ segment ∈ segments, segment.RootChanged (.ofPasses passes) := by
  have isRun : Session.roots? (.ofPasses passes) session (.runList ["check"]) = some [1] := by
    cbv
  have succeeded : session.perform (.ofPasses passes) (.runList ["check"]) =
      (.ok (.changed false), listed.2) := by
    cbv
  obtain ⟨segments, _, divided, _, trace, changed, _⟩ :=
    Session.perform_run_changed accepted isRun succeeded
  refine ⟨accepted, isRun, succeeded, segments, divided, trace, ?_⟩
  intro some
  cases changed.2 some

/-- The answer is that nothing changed, and yet a pass ran and reported a change. -/
theorem change_lost :
    (Registry.ofPasses passes).Accepted ∧ Session.Reachable (.ofPasses passes) session ∧
      listed.1 = .ok (.changed false) ∧ ∃ pass, ⟨pass, .ran true⟩ ∈ listed.2.trace.toList := by
  have answered : listed.1 = .ok (.changed false) := by
    cbv
  have traced : listed.2.trace.toList = [⟨"tidy", .ran true⟩, ⟨"check", .ran false⟩] := by
    cbv
  refine ⟨accepted, .start 0 (), answered, "tidy", ?_⟩
  rw [traced]
  simp

end Reporter

end PassScheduler
