import Mathlib.Algebra.BigOperators.Group.List.Basic
import Mathlib.Algebra.GroupWithZero.Nat
import PassScheduler.Proofs.Collection.Occurrence
import PassScheduler.Proofs.Schedule.Conflict

/-!
Contract: the runs of a demand from the start, told without a session.

Whether a pass runs depends on what is valid and on what waits for it, and from the start a pass is
valid iff it is an analysis whose latest run is still good. What the passes do to the world has no
part in it, nor has the level: a demand that is answered is a walk over lists of passes that have
run.

Owns:
- the analyses that are still good after some runs, and walks;
- that a demand from the start which is answered follows a walk;
- what every walk keeps: who runs on behalf of whom, that every run is prepared, and how often a
  transformation runs.

Does not own: in which order passes run for the first time.
-/

namespace PassScheduler

namespace Registry

variable {Instance : Type} {registry : Registry Instance}

/-- An analysis is among some runs, and no run since its latest one reaches it. -/
def StillGood (registry : Registry Instance) (done : List PassId) (id : PassId) : Prop :=
  registry.isAnalysis id ∧ ∃ before since, done = before ++ id :: since ∧
    ∀ runner ∈ since, ¬ registry.Upsets runner id

theorem StillGood.mem {done : List PassId} {id : PassId} (good : registry.StillGood done id) :
    id ∈ done := by
  obtain ⟨_, before, since, rfl, _⟩ := good
  simp

theorem not_stillGood_nil (registry : Registry Instance) (id : PassId) :
    ¬ registry.StillGood [] id :=
  fun good => List.not_mem_nil good.mem

/-- After one more run, the runner is good if it is an analysis, and any other pass is good if it
was and the run does not reach it. -/
theorem stillGood_concat {done : List PassId} {runner id : PassId} :
    registry.StillGood (done ++ [runner]) id ↔
      (id = runner ∧ registry.isAnalysis runner) ∨
        (id ≠ runner ∧ registry.StillGood done id ∧ ¬ registry.Upsets runner id) := by
  constructor
  · rintro ⟨isAnalysis, before, since, split, spared⟩
    by_cases same : id = runner
    · exact .inl ⟨same, same ▸ isAnalysis⟩
    · rcases concat_eq_append_cons_iff.1 split with ⟨earlier, isOld, rfl⟩ | ⟨_, isLast, _⟩
      · rw [List.forall_mem_append] at spared
        exact .inr ⟨same, ⟨isAnalysis, before, earlier, isOld, spared.1⟩,
          spared.2 runner (List.mem_singleton_self runner)⟩
      · exact absurd isLast same
  · rintro (⟨rfl, isAnalysis⟩ | ⟨_, ⟨isAnalysis, before, since, rfl, unharmed⟩, spared⟩)
    · exact ⟨isAnalysis, done, [], rfl, by simp⟩
    · refine ⟨isAnalysis, before, since ++ [runner], by simp, ?_⟩
      exact List.forall_mem_append.2 ⟨unharmed, by simpa using spared⟩

/-- The prerequisites of the first pass on a path are met when some passes have run: the passes that
run for it, in order. -/
inductive Walks (registry : Registry Instance) :
    (path pending done runs : List PassId) → Prop where
  | done {path done : List PassId} : Walks registry path [] done []
  | cached {path pending done runs : List PassId} {next : PassId}
      (good : registry.StillGood done next) (rest : Walks registry path pending done runs) :
      Walks registry path (next :: pending) done runs
  | ran {path pending done above rest : List PassId} {next : PassId}
      (stale : ¬ registry.StillGood done next) (offPath : next ∉ path)
      (inside : next < registry.size)
      (met : Walks registry (next :: path) (registry.requirements next) done above)
      (ready : ∀ kept, registry.Requires next kept → registry.isAnalysis kept →
        registry.StillGood (done ++ above) kept)
      (others : Walks registry path pending (done ++ above ++ [next]) rest) :
      Walks registry path (next :: pending) done (above ++ next :: rest)

/-- Each of some runs finds the analyses that it requires still good. -/
def Prepared (registry : Registry Instance) : (done runs : List PassId) → Prop
  | _, [] => True
  | done, id :: runs =>
      (∀ kept, registry.Requires id kept → registry.isAnalysis kept →
        registry.StillGood done kept) ∧ registry.Prepared (done ++ [id]) runs

theorem prepared_append {done first second : List PassId} :
    registry.Prepared done (first ++ second) ↔
      registry.Prepared done first ∧ registry.Prepared (done ++ first) second := by
  induction first generalizing done with
  | nil => simp [Prepared]
  | cons id first inductionHypothesis =>
      rw [List.cons_append, Prepared, Prepared, inductionHypothesis, and_assoc, List.append_assoc,
        List.singleton_append]

namespace Walks

variable {path pending done runs : List PassId}

theorem lt_size (walks : registry.Walks path pending done runs) :
    ∀ id ∈ runs, id < registry.size := by
  induction walks with
  | done => simp
  | cached _ _ inductionHypothesis => exact inductionHypothesis
  | ran _ _ inside _ _ _ above rest =>
      exact List.forall_mem_append.2 ⟨above, List.forall_mem_cons.2 ⟨inside, rest⟩⟩

/-- A pass that waits does not run. -/
theorem offPath (walks : registry.Walks path pending done runs) :
    ∀ id ∈ runs, id ∉ path := by
  induction walks with
  | done => simp
  | cached _ _ inductionHypothesis => exact inductionHypothesis
  | ran _ offPath _ _ _ _ above rest =>
      refine List.forall_mem_append.2 ⟨fun id isAbove => ?_, List.forall_mem_cons.2 ⟨offPath, rest⟩⟩
      exact fun onPath => above id isAbove (List.mem_cons_of_mem _ onPath)

/-- Whatever runs is pending, or a pass that runs with it requires it. -/
theorem exists_requires (walks : registry.Walks path pending done runs) :
    ∀ id ∈ runs, id ∈ pending ∨ ∃ dependent ∈ runs, registry.Requires dependent id := by
  induction walks with
  | done => simp
  | cached _ _ inductionHypothesis =>
      exact fun id isRun => (inductionHypothesis id isRun).imp_left (List.mem_cons_of_mem _)
  | @ran path pending done above rest next _ _ _ _ _ _ aboveRuns restRuns =>
      intro id isRun
      rcases List.mem_append.1 isRun with isAbove | isNext | ⟨_, isRest⟩
      · rcases aboveRuns id isAbove with requires | ⟨dependent, isRun, requires⟩
        · exact .inr ⟨next, by simp, requires⟩
        · exact .inr ⟨dependent, List.mem_append_left _ isRun, requires⟩
      · exact .inl List.mem_cons_self
      · rcases restRuns id isRest with isPending | ⟨dependent, isRun, requires⟩
        · exact .inl (List.mem_cons_of_mem _ isPending)
        · exact .inr ⟨dependent, by simp [isRun], requires⟩

theorem prepared (walks : registry.Walks path pending done runs) :
    registry.Prepared done runs := by
  induction walks with
  | done => trivial
  | cached _ _ inductionHypothesis => exact inductionHypothesis
  | ran _ _ _ _ ready _ above rest => exact prepared_append.2 ⟨above, ready, rest⟩

/-- A transformation runs once for each time that it is listed, by the first pass on the path or by
a pass that runs. -/
theorem count_transformation (walks : registry.Walks path pending done runs) {id : PassId}
    (isTransformation : ¬ registry.isAnalysis id) :
    runs.count id =
      pending.count id + (runs.map fun runner => (registry.requirements runner).count id).sum := by
  induction walks with
  | done => rfl
  | cached good _ inductionHypothesis =>
      have distinct : _ ≠ id := fun same => isTransformation (same ▸ good.1)
      rw [inductionHypothesis, List.count_cons_of_ne distinct]
  | ran _ _ _ _ _ _ above rest =>
      simp only [List.count_append, List.count_cons, List.map_append, List.map_cons,
        List.sum_append, List.sum_cons, above, rest]
      omega

end Walks

end Registry

/-! ## Demands from the start -/

namespace Session

variable {Instance World : Type} {registry : Registry Instance}

/-- What is added to a journal with a trace beside it adds its completed runs to what was
executed. -/
theorem Records.executed {before after : Session Instance World} {entries : List JournalEntry}
    (records : before.Records entries after) :
    after.trace.executed =
      before.trace.executed ++ (entries.filterMap JournalEntry.ran?).map Prod.fst := by
  have same : ∀ entry : JournalEntry,
      (entry.event?.filter fun event => event.action.isRun).map Event.pass =
        entry.ran?.map Prod.fst := by
    intro entry
    cases entry with
    | noticed notice => cases notice <;> rfl
    | _ => rfl
  simp only [Trace.executed, records.trace, List.filter_append, List.map_append,
    List.filter_filterMap, List.map_filterMap, same]

variable [Pass Instance World]

theorem Executed.trace_executed {session : Session Instance World} {id : PassId}
    {attempt : Attempt Instance World Bool} (executed : Executed registry session id attempt)
    {changed : Bool} (succeeded : attempt.1 = .ok changed) :
    attempt.2.trace.executed = session.trace.executed ++ [registry.name id] := by
  have quiet {entries : List JournalEntry} (minor : ∀ entry ∈ entries, entry.Minor) :
      entries.filterMap JournalEntry.ran? = [] :=
    List.filterMap_eq_nil_iff.2 fun entry member => (minor entry member).ran?
  obtain ⟨before, after, records, minorBefore, minorAfter⟩ := executed.records_of_ok succeeded
  rw [records.executed]
  simp [quiet minorBefore, quiet minorAfter, JournalEntry.ran?]

/-- What is valid are the analyses that are still good after some runs. -/
def ValidAfter (registry : Registry Instance) (done : List PassId)
    (session : Session Instance World) : Prop :=
  ∀ id, session.isValid id ↔ registry.StillGood done id

theorem Executed.validAfter {session : Session Instance World} {id : PassId}
    {attempt : Attempt Instance World Bool} (executed : Executed registry session id attempt)
    (resolved : registry.Resolved) (fits : session.Fits registry) {done : List PassId}
    (validAfter : session.ValidAfter registry done) {changed : Bool}
    (succeeded : attempt.1 = .ok changed) :
    attempt.2.ValidAfter registry (done ++ [id]) := by
  intro other
  rw [executed.isValid_of_ok fits succeeded, Registry.stillGood_concat, resolved.mem_stale,
    validAfter other]

theorem Met.walks {path pending : List PassId} {session : Session Instance World}
    {attempt : Attempt Instance World Unit} (met : Met registry path pending session attempt)
    (resolved : registry.Resolved) (fits : session.Fits registry) {done : List PassId}
    (validAfter : session.ValidAfter registry done) (succeeded : attempt.1 = .ok ()) :
    ∃ runs, registry.Walks path pending done runs ∧
      attempt.2.ValidAfter registry (done ++ runs) ∧
      attempt.2.trace.executed = session.trace.executed ++ runs.map registry.name := by
  induction met generalizing done with
  | done => exact ⟨[], .done, by simpa using validAfter, by simp⟩
  | @cached path pending next session attempt isValid _ inductionHypothesis =>
      obtain ⟨runs, walks, valid, executed⟩ := inductionHypothesis fits validAfter succeeded
      have noRun : [JournalEntry.noticed (.cached (registry.name next))].filterMap
          JournalEntry.ran? = [] := rfl
      rw [(session.records_cached (registry.name next)).executed, noRun, List.map_nil,
        List.append_nil] at executed
      exact ⟨runs, .cached ((validAfter next).1 isValid) walks, valid, executed⟩
  | circular => cases succeeded
  | tooDeep => cases succeeded
  | blocked => cases succeeded
  | failed => cases succeeded
  | @ran path pending next changed session between after attempt invalid offPath _ aboveMet
      executed _ above rest =>
      have fitsBetween := aboveMet.fits fits
      obtain ⟨aboveRuns, aboveWalks, aboveValid, aboveTrace⟩ := above fits validAfter rfl
      have valid := executed.validAfter resolved fitsBetween aboveValid rfl
      obtain ⟨restRuns, restWalks, restValid, restTrace⟩ :=
        rest (executed.fits fitsBetween) valid succeeded
      refine ⟨aboveRuns ++ next :: restRuns, .ran (fun good => invalid ((validAfter next).2 good))
        offPath (executed.inside_of_ok rfl) aboveWalks (fun kept requires isAnalysis => ?_)
        restWalks, by simpa using restValid, ?_⟩
      · exact (aboveValid kept).1 (executed.fresh_of_ok rfl requires isAnalysis)
      · rw [restTrace, executed.trace_executed rfl, aboveTrace]
        simp

/-- A demand of an enabled pass from the start that is answered follows a walk to that pass. -/
theorem walks_of_demand_start (resolved : registry.Resolved) {level : Level} {world : World}
    {id : PassId} {descriptor : Descriptor} (found : registry.descriptor? id = some descriptor)
    (enabled : descriptor.isEnabledAt level) {changed : Bool} {session : Session Instance World}
    (answered : (start registry level world).demand registry id = (.ok changed, session)) :
    ∃ runs, registry.Walks [] [id] [] runs ∧
      session.trace.executed = runs.map registry.name := by
  obtain ⟨between, met, executed⟩ := ran_of_demand_start found enabled answered
  let opened := (start registry level world).note (.demanded descriptor.name)
  have fits : opened.Fits registry := (sound_start registry level world).fits
  have noneValid : opened.ValidAfter registry [] := fun other =>
    iff_of_false (not_isValid_start registry level world other)
      (registry.not_stillGood_nil other)
  obtain ⟨above, walks, valid, trace⟩ := met.walks resolved fits noneValid rfl
  refine ⟨above ++ [id], .ran (registry.not_stillGood_nil id) List.not_mem_nil
    (executed.inside_of_ok rfl) walks (fun kept requires isAnalysis => ?_) .done, ?_⟩
  · exact (valid kept).1 (executed.fresh_of_ok rfl requires isAnalysis)
  · rw [executed.trace_executed rfl, trace, List.map_append]
    rfl

end Session

end PassScheduler
