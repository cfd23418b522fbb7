import PassScheduler.Proofs.Registry.Acceptance
import PassScheduler.Proofs.Schedule.Journal

/-!
Contract: everything that the run of a single pass can come to.

Owns:
- `Executed`, one case for each way in which an execution ends, with what it finds and leaves;
- the validity after a completed run, pass by pass;
- the journal entries of an execution: one for a completed run, and minor ones.

Does not own: what runs before a pass.
-/

namespace PassScheduler

namespace JournalEntry

/-- The completed run that an entry tells of: its pass, and whether it reported a change. -/
def ran? : JournalEntry → Option (String × Bool)
  | .noticed (.ran pass changed) => some (pass, changed)
  | _ => none

/-- The pass whose demand an entry opens. -/
def demanded? : JournalEntry → Option String
  | .demanded pass => some pass
  | _ => none

/-- An entry that is no completed run, opens no demand and is no reset. -/
structure Minor (entry : JournalEntry) : Prop where
  ran? : entry.ran? = none
  demanded? : entry.demanded? = none
  ne_reset : entry ≠ .reset

end JournalEntry

namespace Session

variable {Instance World : Type}

/-! ## Passes that go stale -/

section Invalidation

variable (registry : Registry Instance)

theorem invalidations_foldl (session : Session Instance World) (targets : List PassId) :
    targets.foldl (invalidateWithDependents registry) session =
      (targets.flatMap fun target => target :: registry.graph.transitiveDependents target).foldl
        (invalidate registry) session := by
  rw [List.foldl_flatMap]
  rfl

theorem invalidate_validity (session : Session Instance World) (id : PassId) :
    (session.invalidate registry id).validity = session.validity.invalidate id := by
  unfold invalidate
  by_cases valid : session.isValid id
  · simp [valid, record, notice, note]
  · rw [isValid] at valid
    simp [isValid, ValiditySet.invalidate, valid]

theorem state_foldl_invalidate (session : Session Instance World) (ids : List PassId)
    (other : PassId) :
    (ids.foldl (invalidate registry) session).validity.state other =
      if session.isValid other ∧ other ∈ ids then .invalidated
      else session.validity.state other := by
  induction ids generalizing session with
  | nil => simp
  | cons id ids inductionHypothesis =>
      rw [List.foldl_cons, inductionHypothesis]
      simp only [isValid, ValiditySet.isValid_iff, invalidate_validity,
        ValiditySet.state_invalidate, List.mem_cons]
      by_cases same : id = other
      · subst same
        by_cases valid : session.validity.state id = .valid <;> simp [valid]
      · simp [same, Ne.symm same]

theorem isValid_foldl_invalidate (session : Session Instance World) (ids : List PassId)
    (other : PassId) :
    (ids.foldl (invalidate registry) session).isValid other ↔
      session.isValid other ∧ other ∉ ids := by
  simp only [isValid, ValiditySet.isValid_iff, state_foldl_invalidate]
  by_cases valid : session.validity.state other = .valid <;>
    by_cases member : other ∈ ids <;> simp [valid, member]

theorem length_foldl_invalidate (session : Session Instance World) (ids : List PassId) :
    (ids.foldl (invalidate registry) session).validity.states.length =
      session.validity.states.length := by
  induction ids generalizing session with
  | nil => rfl
  | cons id ids inductionHypothesis =>
      rw [List.foldl_cons, inductionHypothesis, invalidate_validity,
        ValiditySet.length_invalidate]

/-- Invalidations touch nothing but validity and records. -/
theorem foldl_invalidate_frame (session : Session Instance World) (ids : List PassId) :
    (ids.foldl (invalidate registry) session).level = session.level ∧
      (ids.foldl (invalidate registry) session).instances = session.instances ∧
      (ids.foldl (invalidate registry) session).world = session.world := by
  induction ids generalizing session with
  | nil => exact ⟨rfl, rfl, rfl⟩
  | cons id ids inductionHypothesis =>
      rw [List.foldl_cons]
      obtain ⟨level, instances, world⟩ := inductionHypothesis (session.invalidate registry id)
      rw [level, instances, world]
      unfold invalidate
      split <;> exact ⟨rfl, rfl, rfl⟩

theorem records_foldl_invalidate (session : Session Instance World) (ids : List PassId) :
    ∃ entries, session.Records entries (ids.foldl (invalidate registry) session) ∧
      ∀ entry ∈ entries, ∃ pass, entry = .noticed (.invalidated pass) := by
  induction ids generalizing session with
  | nil => exact ⟨[], .refl session, by simp⟩
  | cons id ids inductionHypothesis =>
      obtain ⟨entries, recorded, each⟩ := inductionHypothesis (session.invalidate registry id)
      rw [List.foldl_cons]
      by_cases valid : session.isValid id
      · have first : session.Records [.noticed (.invalidated (registry.name id))]
            (session.invalidate registry id) := by
          unfold invalidate
          rw [if_pos valid]
          exact ⟨by simp [history, notice, note, record],
            by simp [notice, note, record, JournalEntry.event?, Notice.event?]⟩
        refine ⟨_, first.trans recorded, ?_⟩
        intro entry member
        rcases List.mem_append.1 member with isFirst | member
        · exact ⟨_, List.mem_singleton.1 isFirst⟩
        · exact each entry member
      · have same : session.invalidate registry id = session := by
          unfold invalidate
          rw [if_neg valid]
        rw [same] at recorded ⊢
        exact ⟨entries, recorded, each⟩

end Invalidation

/-! ## The run itself -/

theorem binding?_keep (session : Session Instance World) (id other : PassId)
    (binding : Binding Instance) :
    (session.keep id binding).binding? other =
      if id = other ∧ id < session.instances.length then some binding
      else session.binding? other := by
  unfold binding? keep
  rw [List.getElem?_set]
  by_cases same : id = other
  · subst same
    by_cases inside : id < session.instances.length <;> simp [inside]
  · simp [same]

theorem binding?_of_none {session : Session Instance World} {count : Nat}
    (noneMade : session.instances = List.replicate count none) (id : PassId) :
    session.binding? id = none := by
  rw [binding?, noneMade, List.getElem?_replicate]
  split <;> rfl

theorem obtain_frame (session : Session Instance World) (id : PassId)
    (pass : ResolvedPass Instance) :
    (session.obtain id pass).2.level = session.level ∧
      (session.obtain id pass).2.validity = session.validity ∧
      (session.obtain id pass).2.world = session.world := by
  unfold obtain
  cases session.binding? id <;> exact ⟨rfl, rfl, rfl⟩

private theorem records_obtain (session : Session Instance World) (id : PassId)
    (pass : ResolvedPass Instance) :
    ∃ entries, session.Records entries (session.obtain id pass).2 ∧
      ∀ entry ∈ entries, entry.Minor := by
  unfold obtain
  cases session.binding? id with
  | some binding => exact ⟨[], .refl session, by simp⟩
  | none =>
      have made := records_note session
        (rfl : (JournalEntry.created ⟨pass.descriptor.name, session.level⟩).event? = none)
      refine ⟨_, ⟨made.history, made.trace⟩, ?_⟩
      simpa using ⟨rfl, rfl, by simp⟩

variable [Pass Instance World]

/-- The run of a pass by the instance that is kept for the level, or by one made now. -/
def runPass (session : Session Instance World) (id : PassId) (pass : ResolvedPass Instance) :
    Except PassError Bool × Session Instance World :=
  let (binding, session) := session.obtain id pass
  session.enter id binding

section Run

variable {session after : Session Instance World} {id : PassId} {pass : ResolvedPass Instance}
variable {result : Except PassError Bool}

/-- A run touches neither level nor validity. -/
theorem runPass_frame (ran : session.runPass id pass = (result, after)) :
    after.level = session.level ∧ after.validity = session.validity := by
  obtain ⟨level, validity, _⟩ := session.obtain_frame id pass
  have entered : after = (session.runPass id pass).2 := by rw [ran]
  rw [entered]
  exact ⟨level, validity⟩

theorem runPass_trace (ran : session.runPass id pass = (result, after)) :
    after.trace = session.trace := by
  have entered : after = (session.runPass id pass).2 := by rw [ran]
  rw [entered]
  unfold runPass obtain
  cases session.binding? id <;> rfl

/-- A run hands the world to an instance of the pass. -/
theorem runPass_world (ran : session.runPass id pass = (result, after)) :
    after.world = (Pass.run (session.obtain id pass).1.bound session.world).2.2 := by
  obtain ⟨_, _, world⟩ := session.obtain_frame id pass
  have entered : after = (session.runPass id pass).2 := by rw [ran]
  rw [entered, ← world]
  rfl

theorem records_runPass (ran : session.runPass id pass = (result, after)) :
    ∃ entries, session.Records entries after ∧ ∀ entry ∈ entries, entry.Minor := by
  obtain ⟨entries, obtained, minor⟩ := session.records_obtain id pass
  let binding := (session.obtain id pass).1
  have noted := records_note (session.obtain id pass).2
    (rfl : (JournalEntry.entered binding.context).event? = none)
  have entered : after = (session.runPass id pass).2 := by rw [ran]
  refine ⟨entries ++ [.entered binding.context], ?_, ?_⟩
  · rw [entered]
    exact obtained.trans ⟨noted.history, noted.trace⟩
  · intro entry member
    rcases List.mem_append.1 member with member | isLast
    · exact minor entry member
    · rw [List.mem_singleton.1 isLast]
      exact ⟨rfl, rfl, by simp⟩

end Run

/-- What is done once a pass has run: what it makes stale loses its validity, and then its own run
counts. -/
def conclude (registry : Registry Instance) (session : Session Instance World) (id : PassId)
    (kind : PassKind) : Session Instance World :=
  let session := (registry.stale id).foldl (invalidate registry) session
  { session with validity := session.validity.recordRun id kind }

/-- An execution in terms of the run of the pass and of what follows it. -/
theorem execute_eq_runPass {registry : Registry Instance} (session : Session Instance World)
    {id : PassId} {pass : ResolvedPass Instance} (found : registry.pass? id = some pass)
    (fresh : (pass.requirements.find? fun other =>
      registry.isAnalysis other && !session.isValid other) = none) :
    session.execute registry id =
      match session.runPass id pass with
      | (.error cause, after) => (.error (.passFailed pass.descriptor.name cause), after)
      | (.ok changed, after) =>
          (.ok changed,
            (after.recordRan pass.descriptor.name changed).conclude registry id
              pass.descriptor.kind) := by
  have invalidations : registry.invalidations id = pass.invalidations := by
    simp [Registry.invalidations, found]
  unfold execute runPass conclude Registry.stale
  cases entered : (session.obtain id pass).2.enter id (session.obtain id pass).1 with
  | mk result after =>
      cases result <;> simp only [found, fresh, entered, invalidations_foldl, invalidations]

/-- The ways in which the execution of a pass ends. -/
inductive Executed (registry : Registry Instance) (session : Session Instance World) (id : PassId) :
    Attempt Instance World Bool → Prop where
  | unknown (missing : registry.pass? id = none) :
      Executed registry session id (.error (.unknownPass (unissuedName id)), session)
  | stale {pass : ResolvedPass Instance} {prerequisite : PassId}
      (found : registry.pass? id = some pass) (listed : registry.Requires id prerequisite)
      (isAnalysis : registry.isAnalysis prerequisite) (invalid : ¬ session.isValid prerequisite) :
      Executed registry session id
        (.error (.stalePrerequisite pass.descriptor.name (registry.name prerequisite)), session)
  | failed {pass : ResolvedPass Instance} {cause : PassError} {after : Session Instance World}
      (found : registry.pass? id = some pass)
      (fresh : ∀ other, registry.Requires id other → registry.isAnalysis other →
        session.isValid other)
      (ran : session.runPass id pass = (.error cause, after)) :
      Executed registry session id (.error (.passFailed pass.descriptor.name cause), after)
  | ran {pass : ResolvedPass Instance} {changed : Bool} {after : Session Instance World}
      (found : registry.pass? id = some pass)
      (fresh : ∀ other, registry.Requires id other → registry.isAnalysis other →
        session.isValid other)
      (ran : session.runPass id pass = (.ok changed, after)) :
      Executed registry session id
        (.ok changed,
          (after.recordRan pass.descriptor.name changed).conclude registry id pass.descriptor.kind)

omit [Pass Instance World] in
/-- If none is found that is stale, every analysis that a pass requires is valid. -/
theorem fresh_of_checked {registry : Registry Instance} {session : Session Instance World}
    {id : PassId} {pass : ResolvedPass Instance} (found : registry.pass? id = some pass)
    (checked : (pass.requirements.find? fun other =>
      registry.isAnalysis other && !session.isValid other) = none) :
    ∀ other, registry.Requires id other → registry.isAnalysis other → session.isValid other := by
  intro other listed isAnalysis
  have requirements : registry.requirements id = pass.requirements := by
    simp [Registry.requirements, found]
  rw [Registry.Requires, requirements] at listed
  simpa [isAnalysis] using List.find?_eq_none.1 checked other listed

theorem executed (registry : Registry Instance) (session : Session Instance World) (id : PassId) :
    Executed registry session id (session.execute registry id) := by
  unfold execute
  cases found : registry.pass? id with
  | none => exact .unknown found
  | some pass =>
      cases checked : pass.requirements.find? fun other =>
          registry.isAnalysis other && !session.isValid other with
      | some prerequisite =>
          have bad := List.find?_some checked
          simp only [Bool.and_eq_true, Bool.not_eq_eq_eq_not, Bool.not_true] at bad
          have listed : registry.Requires id prerequisite := by
            rw [Registry.Requires, Registry.requirements, found]
            exact List.mem_of_find?_eq_some checked
          simp only [checked]
          exact .stale found listed bad.1 (by simp [bad.2])
      | none =>
          have fresh := fresh_of_checked found checked
          simp only [checked]
          cases ran : session.runPass id pass with
          | mk result after =>
              have entering : (session.obtain id pass).2.enter id (session.obtain id pass).1 =
                  (result, after) := ran
              rw [entering]
              cases result with
              | error cause => exact .failed found fresh ran
              | ok changed =>
                  have concluded := Executed.ran found fresh ran
                  unfold conclude Registry.stale Registry.invalidations at concluded
                  simp only [found, Option.map_some, Option.getD_some] at concluded
                  simpa only [invalidations_foldl] using concluded

/-! ## What an execution leaves -/

/-- The session has a state for every pass of the registry and for no others. -/
def Fits (registry : Registry Instance) (session : Session Instance World) : Prop :=
  session.validity.states.length = registry.size

section

variable {registry : Registry Instance} {session : Session Instance World} {id : PassId}

omit [Pass Instance World] in
theorem isValid_conclude (fits : session.Fits registry) (inside : id < registry.size)
    (kind : PassKind) (other : PassId) :
    (session.conclude registry id kind).isValid other ↔
      (other = id ∧ kind = .analysis) ∨
        (other ≠ id ∧ session.isValid other ∧ other ∉ registry.stale id) := by
  let invalidated := (registry.stale id).foldl (invalidate registry) session
  have length : invalidated.validity.states.length = registry.size := by
    rw [length_foldl_invalidate]
    exact fits
  have state : (session.conclude registry id kind).validity.state other =
      if id = other ∧ id < invalidated.validity.states.length then .afterRun kind
      else invalidated.validity.state other :=
    ValiditySet.state_recordRun _ _ _ _
  rw [isValid, ValiditySet.isValid_iff, state, length]
  by_cases same : other = id
  · subst same
    cases kind <;> simp [inside, PassState.afterRun]
  · rw [if_neg (fun both => same both.1.symm), ← ValiditySet.isValid_iff]
    have spared := isValid_foldl_invalidate registry session (registry.stale id) other
    constructor
    · exact fun valid => .inr ⟨same, spared.1 valid⟩
    · rintro (⟨isSame, _⟩ | ⟨_, valid⟩)
      · exact absurd isSame same
      · exact spared.2 valid

omit [Pass Instance World] in
/-- What follows a run touches nothing but validity and records. -/
theorem conclude_frame (registry : Registry Instance) (session : Session Instance World)
    (id : PassId) (kind : PassKind) :
    (session.conclude registry id kind).level = session.level ∧
      (session.conclude registry id kind).instances = session.instances ∧
      (session.conclude registry id kind).world = session.world :=
  foldl_invalidate_frame registry session (registry.stale id)

omit [Pass Instance World] in
theorem records_conclude (registry : Registry Instance) (id : PassId)
    (session : Session Instance World) (kind : PassKind) :
    ∃ entries, session.Records entries (session.conclude registry id kind) ∧
      ∀ entry ∈ entries, entry.Minor := by
  obtain ⟨entries, recorded, each⟩ := session.records_foldl_invalidate registry (registry.stale id)
  refine ⟨entries, ⟨recorded.history, recorded.trace⟩, ?_⟩
  intro entry member
  obtain ⟨pass, rfl⟩ := each entry member
  exact ⟨rfl, rfl, by simp⟩

end

namespace Executed

variable {registry : Registry Instance} {session : Session Instance World} {id : PassId}
variable {attempt : Attempt Instance World Bool}

/-- An execution that fails leaves validity as it was. -/
theorem validity_of_error (done : Executed registry session id attempt) {error : ScheduleError}
    (failed : attempt.1 = .error error) :
    attempt.2.validity = session.validity := by
  cases done with
  | unknown => rfl
  | stale => rfl
  | failed _ _ ran => exact (runPass_frame ran).2
  | ran => cases failed

theorem level (done : Executed registry session id attempt) :
    attempt.2.level = session.level := by
  cases done with
  | unknown => rfl
  | stale => rfl
  | failed _ _ ran => exact (runPass_frame ran).1
  | @ran pass changed after _ _ ran =>
      have concluded := conclude_frame registry (after.recordRan pass.descriptor.name changed) id
        pass.descriptor.kind
      exact concluded.1.trans (runPass_frame ran).1

theorem inside_of_ok (done : Executed registry session id attempt) {changed : Bool}
    (succeeded : attempt.1 = .ok changed) :
    id < registry.size := by
  cases done with
  | ran found => exact Registry.lt_size_of_pass? found
  | _ => cases succeeded

/-- After a completed run a pass is valid if it is an analysis, and any other pass is valid if it
was and the run did not make it stale. -/
theorem isValid_of_ok (done : Executed registry session id attempt) (fits : session.Fits registry)
    {changed : Bool} (succeeded : attempt.1 = .ok changed) (other : PassId) :
    attempt.2.isValid other ↔
      (other = id ∧ registry.isAnalysis id) ∨
        (other ≠ id ∧ session.isValid other ∧ other ∉ registry.stale id) := by
  cases done with
  | @ran pass changed after found _ ran =>
      have recorded : (after.recordRan pass.descriptor.name changed).validity =
          session.validity := (runPass_frame ran).2
      have fitsAfter : (after.recordRan pass.descriptor.name changed).Fits registry := by
        rw [Fits, recorded]
        exact fits
      rw [isValid_conclude fitsAfter (Registry.lt_size_of_pass? found),
        ← Registry.isAnalysis_of_pass? found, isValid, recorded]
      rfl
  | _ => cases succeeded

theorem fits (done : Executed registry session id attempt) (fits : session.Fits registry) :
    attempt.2.Fits registry := by
  cases result : attempt.1 with
  | error error =>
      rw [Fits, done.validity_of_error result]
      exact fits
  | ok changed =>
      cases done with
      | @ran pass changed after _ _ ran =>
          have recorded : (after.recordRan pass.descriptor.name changed).validity =
              session.validity := (runPass_frame ran).2
          rw [Fits, conclude, ValiditySet.length_recordRun, length_foldl_invalidate, recorded]
          exact fits
      | _ => cases result

/-- A completed run is entered into the journal once, among minor entries. -/
theorem records_of_ok (done : Executed registry session id attempt) {changed : Bool}
    (succeeded : attempt.1 = .ok changed) :
    ∃ before after,
      session.Records (before ++ .noticed (.ran (registry.name id) changed) :: after) attempt.2 ∧
        (∀ entry ∈ before, entry.Minor) ∧ ∀ entry ∈ after, entry.Minor := by
  cases done with
  | @ran pass changed after found _ ran =>
      cases succeeded
      obtain ⟨first, entered, firstMinor⟩ := records_runPass ran
      obtain ⟨last, concluded, lastMinor⟩ := records_conclude registry id
        (after.recordRan pass.descriptor.name changed)
        pass.descriptor.kind
      refine ⟨first, last, ?_, firstMinor, lastMinor⟩
      rw [Registry.name_of_pass? found]
      exact entered.trans ((after.records_ran pass.descriptor.name changed).trans concluded)
  | _ => cases succeeded

/-- A failed execution adds minor entries only. -/
theorem records_of_error (done : Executed registry session id attempt) {error : ScheduleError}
    (failed : attempt.1 = .error error) :
    ∃ entries, session.Records entries attempt.2 ∧ ∀ entry ∈ entries, entry.Minor := by
  cases done with
  | unknown => exact ⟨[], .refl session, by simp⟩
  | stale => exact ⟨[], .refl session, by simp⟩
  | failed _ _ ran => exact records_runPass ran
  | ran => cases failed

/-- The entries of an execution stay within one demand, and tell of no other run than its own. -/
theorem records (done : Executed registry session id attempt) :
    ∃ entries, session.Records entries attempt.2 ∧ (∀ entry ∈ entries, entry.demanded? = none) ∧
      ∀ pass changed, .noticed (.ran pass changed) ∈ entries ↔
        pass = registry.name id ∧ attempt.1 = .ok changed := by
  have notMinor : ∀ pass changed, ¬ (JournalEntry.noticed (.ran pass changed)).Minor := by
    intro pass changed minor
    cases minor.ran?
  cases result : attempt.1 with
  | error error =>
      obtain ⟨entries, recorded, minor⟩ := done.records_of_error result
      refine ⟨entries, recorded, fun entry member => (minor entry member).demanded?, ?_⟩
      intro pass changed
      have absent : .noticed (.ran pass changed) ∉ entries :=
        fun member => notMinor pass changed (minor _ member)
      simp [absent]
  | ok changed =>
      obtain ⟨first, last, recorded, firstMinor, lastMinor⟩ := done.records_of_ok result
      refine ⟨_, recorded, ?_, ?_⟩
      · refine List.forall_mem_append.2
          ⟨fun entry member => (firstMinor entry member).demanded?, ?_⟩
        exact List.forall_mem_cons.2 ⟨rfl, fun entry member => (lastMinor entry member).demanded?⟩
      · intro pass flag
        have notFirst : .noticed (.ran pass flag) ∉ first :=
          fun member => notMinor pass flag (firstMinor _ member)
        have notLast : .noticed (.ran pass flag) ∉ last :=
          fun member => notMinor pass flag (lastMinor _ member)
        simp [notFirst, notLast, eq_comm]

end Executed

end Session

end PassScheduler
