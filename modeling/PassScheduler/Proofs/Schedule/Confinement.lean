import PassScheduler.Proofs.Schedule.Entering
import PassScheduler.Proofs.Schedule.Gating

/-!
Contract: what a demand does to passes that it does not draw in, and to its own pass before that
runs.

A demand is a row of runs with cached results in between. Only the last run can fail, and a failed
run leaves every state as it found it. A completed run gives its own pass a new state and may take
the validity of any other.

Owns:
- the runs of a demand, and what the journal tells of them;
- states that are kept or fade, and that a pass which completes no run does no more than that;
- that only passes which the demanded one requires run on its behalf, the demanded one last.

Does not own: how often a required pass runs.
-/

open Relation (ReflTransGen)

namespace PassScheduler

/-! ## States that fade -/

/-- A state that is kept, or a valid one that is not trusted any more. -/
def PassState.Fades (before after : PassState) : Prop :=
  after = before ∨ before = .valid ∧ after = .invalidated

namespace PassState.Fades

theorem refl (state : PassState) : state.Fades state :=
  .inl rfl

theorem trans {first second third : PassState} (left : first.Fades second)
    (right : second.Fades third) :
    first.Fades third := by
  rcases left with rfl | ⟨rfl, rfl⟩
  · exact right
  · rcases right with rfl | ⟨impossible, _⟩
    · exact .inr ⟨rfl, rfl⟩
    · cases impossible

theorem eq_of_ne_valid {before after : PassState} (fades : before.Fades after)
    (invalid : before ≠ .valid) :
    after = before :=
  fades.resolve_right fun both => invalid both.1

end PassState.Fades

/-- What takes part at a level draws in only what takes part there. -/
theorem Registry.Accepted.admits_of_reflTransGen {Instance : Type} {registry : Registry Instance}
    (accepted : registry.Accepted) {level : Level} {root id : PassId}
    (admits : registry.Admits level root) (way : ReflTransGen registry.Requires root id) :
    registry.Admits level id := by
  induction way with
  | refl => exact admits
  | tail _ requires inductionHypothesis =>
      exact accepted.admits_requirements inductionHypothesis _ requires

/-! ## Runs -/

/-- The run of a pass, and what came of it. -/
structure PassRun where
  pass : PassId
  result : Except PassError Bool

namespace PassRun

variable {Instance : Type} (registry : Registry Instance)

/-- The run as the journal tells of it, if it was completed. -/
def completed? (run : PassRun) : Option (String × Bool) :=
  match run.result with
  | .ok changed => some (registry.name run.pass, changed)
  | .error _ => none

/-- The journal entries tell of these runs, all at one level, and of no others. -/
structure Told (level : Level) (runs : List PassRun) (entries : List JournalEntry) : Prop where
  entered : entries.filterMap JournalEntry.entered? =
    runs.map fun run => ⟨registry.name run.pass, level⟩
  completed : entries.filterMap JournalEntry.ran? = runs.filterMap (completed? registry)

variable {registry}

theorem completed?_eq_some {run : PassRun} {name : String} {changed : Bool} :
    run.completed? registry = some (name, changed) ↔
      registry.name run.pass = name ∧ run.result = .ok changed := by
  unfold completed?
  split <;> simp_all

theorem Told.append {level : Level} {first second : List PassRun}
    {entries more : List JournalEntry} (left : Told registry level first entries)
    (right : Told registry level second more) :
    Told registry level (first ++ second) (entries ++ more) where
  entered := by rw [List.filterMap_append, left.entered, right.entered, List.map_append]
  completed := by
    rw [List.filterMap_append, left.completed, right.completed, List.filterMap_append]

theorem told_of_stale {level : Level} {entries : List JournalEntry}
    (stale : ∀ entry ∈ entries, ∃ pass, entry = .noticed (.invalidated pass)) :
    Told registry level [] entries := by
  refine ⟨List.filterMap_eq_nil_iff.2 fun entry member => ?_,
    List.filterMap_eq_nil_iff.2 fun entry member => ?_⟩
  all_goals
    obtain ⟨pass, rfl⟩ := stale entry member
    rfl

/-- The runs that the execution of a pass comes to: one, unless the pass is refused beforehand. -/
def ofExecution (id : PassId) : Except ScheduleError Bool → List PassRun
  | .ok changed => [⟨id, .ok changed⟩]
  | .error (.passFailed _ cause) => [⟨id, .error cause⟩]
  | .error _ => []

theorem pass_of_mem_ofExecution {id : PassId} {result : Except ScheduleError Bool} {run : PassRun}
    (isRun : run ∈ ofExecution id result) :
    run.pass = id := by
  unfold ofExecution at isRun
  split at isRun
  · rw [List.mem_singleton.1 isRun]
  · rw [List.mem_singleton.1 isRun]
  · cases isRun

theorem result_ne_ok_of_mem_ofExecution {id : PassId} {error : ScheduleError} {run : PassRun}
    (isRun : run ∈ ofExecution id (.error error)) (changed : Bool) :
    run.result ≠ .ok changed := by
  cases error with
  | passFailed name cause =>
      rw [List.mem_singleton.1 isRun]
      simp
  | _ => cases isRun

end PassRun

namespace Session

variable {Instance World : Type} [Pass Instance World] {registry : Registry Instance}

/-! ## Passages -/

/-- The way from one session to another along these runs. A failed run is the last. -/
inductive Passage (registry : Registry Instance) :
    Session Instance World → List PassRun → Session Instance World → Prop where
  | refl (session : Session Instance World) : Passage registry session [] session
  | cached {session after : Session Instance World} {runs : List PassRun} {id : PassId}
      (valid : session.isValid id)
      (rest : Passage registry (session.recordCached (registry.name id)) runs after) :
      Passage registry session runs after
  | ran {session between after : Session Instance World} {runs : List PassRun} {id : PassId}
      {changed : Bool} (executed : Executed registry session id (.ok changed, between))
      (rest : Passage registry between runs after) :
      Passage registry session (⟨id, .ok changed⟩ :: runs) after
  | failed {session after : Session Instance World} {id : PassId} {cause : PassError}
      (executed :
        Executed registry session id (.error (.passFailed (registry.name id) cause), after)) :
      Passage registry session [⟨id, .error cause⟩] after

theorem Executed.fades {session : Session Instance World} {id other : PassId}
    {attempt : Attempt Instance World Bool} (executed : Executed registry session id attempt)
    (spared : ∀ changed, attempt.1 = .ok changed → other ≠ id) :
    (session.validity.state other).Fades (attempt.2.validity.state other) := by
  cases executed with
  | unknown => exact .refl _
  | stale => exact .refl _
  | failed _ _ ran =>
      rw [(runPass_frame ran).2]
      exact .refl _
  | @ran pass changed after _ _ ran =>
      have distinct := spared changed rfl
      have recorded : (after.recordRan pass.descriptor.name changed).validity = session.validity :=
        (runPass_frame ran).2
      have own : ∀ validity : ValiditySet,
          (validity.recordRun id pass.descriptor.kind).state other = validity.state other := by
        intro validity
        rw [ValiditySet.state_recordRun, if_neg fun both => distinct both.1.symm]
      unfold conclude
      rw [own, state_foldl_invalidate, recorded]
      split
      · rename_i stale
        have valid := (ValiditySet.isValid_iff _ _).1 stale.1
        rw [recorded] at valid
        exact .inr ⟨valid, rfl⟩
      · exact .refl _

/-- The run of a pass failed under the name of the pass. -/
theorem Executed.runPass_of_passFailed {session after : Session Instance World} {id : PassId}
    {name : String} {cause : PassError}
    (executed : Executed registry session id (.error (.passFailed name cause), after)) :
    name = registry.name id ∧ ∃ pass, registry.pass? id = some pass ∧
      session.runPass id pass = (.error cause, after) := by
  cases executed with
  | failed found _ ran => exact ⟨(Registry.name_of_pass? found).symm, _, found, ran⟩

namespace Passage

variable {session between after : Session Instance World} {runs more : List PassRun}

theorem trans (first : Passage registry session runs between)
    (completed : ∀ run ∈ runs, ∃ changed, run.result = .ok changed)
    (second : Passage registry between more after) :
    Passage registry session (runs ++ more) after := by
  induction first with
  | refl => exact second
  | cached valid _ inductionHypothesis => exact .cached valid (inductionHypothesis completed second)
  | ran executed _ inductionHypothesis =>
      exact .ran executed (inductionHypothesis (List.forall_mem_cons.1 completed).2 second)
  | failed =>
      obtain ⟨_, isOk⟩ := completed _ (List.mem_singleton_self _)
      cases isOk

theorem lt_size (passage : Passage registry session runs after) :
    ∀ run ∈ runs, run.pass < registry.size := by
  induction passage with
  | refl => simp
  | cached _ _ inductionHypothesis => exact inductionHypothesis
  | ran executed _ inductionHypothesis =>
      exact List.forall_mem_cons.2 ⟨executed.inside_of_ok rfl, inductionHypothesis⟩
  | failed executed =>
      obtain ⟨_, _, found, _⟩ := executed.runPass_of_passFailed
      simpa using Registry.lt_size_of_pass? found

theorem level (passage : Passage registry session runs after) : after.level = session.level := by
  induction passage with
  | refl => rfl
  | cached _ _ inductionHypothesis => exact inductionHypothesis
  | ran executed _ inductionHypothesis => exact inductionHypothesis.trans executed.level
  | failed executed => exact executed.level

/-- A pass that completes no run keeps its state, unless it loses its validity. -/
theorem fades (passage : Passage registry session runs after) {id : PassId}
    (spared : ∀ run ∈ runs, ∀ changed, run.result = .ok changed → id ≠ run.pass) :
    (session.validity.state id).Fades (after.validity.state id) := by
  induction passage with
  | refl => exact .refl _
  | cached _ _ inductionHypothesis => exact inductionHypothesis spared
  | @ran session between after runs runner changed executed _ inductionHypothesis =>
      obtain ⟨first, others⟩ := List.forall_mem_cons.1 spared
      have now := executed.fades fun _ _ => first changed rfl
      exact now.trans (inductionHypothesis others)
  | failed executed =>
      rw [executed.validity_of_error rfl]
      exact .refl _

/-- A failed run is the end, and leaves validity and trace as they were when it began. -/
theorem failed_last (passage : Passage registry session runs after)
    {earlier later : List PassRun} {id : PassId} {cause : PassError}
    (split : runs = earlier ++ ⟨id, .error cause⟩ :: later) :
    later = [] ∧ ∃ between, Passage registry session earlier between ∧
      Executed registry between id (.error (.passFailed (registry.name id) cause), after) ∧
      after.validity = between.validity ∧ after.trace = between.trace := by
  induction passage generalizing earlier with
  | refl => simp at split
  | cached valid _ inductionHypothesis =>
      obtain ⟨isLast, between, passage, failed⟩ := inductionHypothesis split
      exact ⟨isLast, between, .cached valid passage, failed⟩
  | ran executed _ inductionHypothesis =>
      cases earlier with
      | nil =>
          obtain ⟨isFirst, _⟩ := List.cons.inj split
          cases isFirst
      | cons first earlier =>
          obtain ⟨rfl, rest⟩ := List.cons.inj split
          obtain ⟨isLast, between, passage, failed⟩ := inductionHypothesis rest
          exact ⟨isLast, between, .ran executed passage, failed⟩
  | @failed session after runner reason executed =>
      cases earlier with
      | nil =>
          obtain ⟨isFirst, rfl⟩ := List.cons.inj split
          cases isFirst
          obtain ⟨_, _, _, ran⟩ := executed.runPass_of_passFailed
          exact ⟨rfl, session, .refl session, executed, executed.validity_of_error rfl,
            runPass_trace ran⟩
      | cons first earlier => simp at split

end Passage

/-! ## What the journal tells of a passage -/

section Journal

variable {first : Level} {session after : Session Instance World}

theorem Executed.exists_told {id : PassId} {result : Except ScheduleError Bool}
    (executed : Executed registry session id (result, after))
    (admitting : session.Admitting registry first) :
    ∃ entries, session.Records entries after ∧
      PassRun.Told registry session.level (PassRun.ofExecution id result) entries := by
  cases executed with
  | unknown => exact ⟨[], .refl session, rfl, rfl⟩
  | stale => exact ⟨[], .refl session, rfl, rfl⟩
  | failed found _ ran =>
      obtain ⟨entries, recorded, entered, completed⟩ := exists_records_runPass ran
      rw [(admitting.obtain found).1] at entered
      exact ⟨entries, recorded, entered, completed⟩
  | @ran pass changed after found _ ran =>
      obtain ⟨entries, recorded, entered, completed⟩ := exists_records_runPass ran
      rw [(admitting.obtain found).1] at entered
      obtain ⟨last, concluded, each⟩ := exists_records_conclude recorded registry id
        pass.descriptor.name changed pass.descriptor.kind
      have ownRun : PassRun.Told registry session.level [⟨id, .ok changed⟩]
          (entries ++ [.noticed (.ran pass.descriptor.name changed)]) := by
        rw [← Registry.name_of_pass? found]
        refine ⟨?_, ?_⟩
        · rw [List.filterMap_append, entered]
          rfl
        · rw [List.filterMap_append, completed]
          rfl
      have told := ownRun.append (PassRun.told_of_stale each)
      rw [List.append_nil, List.append_assoc] at told
      exact ⟨_, concluded, told⟩

/-- Runs of passes that take part are told of by the names of the passes and the level. -/
theorem Passage.exists_told {runs : List PassRun} (passage : Passage registry session runs after)
    (admits : ∀ run ∈ runs, registry.Admits session.level run.pass)
    (admitting : session.Admitting registry first) :
    ∃ entries, session.Records entries after ∧
      PassRun.Told registry session.level runs entries := by
  induction passage with
  | refl session => exact ⟨[], .refl session, rfl, rfl⟩
  | @cached session after runs id _ _ inductionHypothesis =>
      have recorded := session.records_cached (registry.name id)
      obtain ⟨entries, rest, told⟩ := inductionHypothesis admits
        (admitting.after_calm_entry recorded rfl rfl rfl)
      exact ⟨_, recorded.trans rest, told.entered, told.completed⟩
  | @ran session between after runs id changed executed _ inductionHypothesis =>
      obtain ⟨own, others⟩ := List.forall_mem_cons.1 admits
      obtain ⟨entries, recorded, told⟩ := executed.exists_told admitting
      have sameLevel : between.level = session.level := executed.level
      rw [sameLevel] at inductionHypothesis
      obtain ⟨more, rest, toldRest⟩ := inductionHypothesis others
        (executed.admitting own admitting)
      exact ⟨_, recorded.trans rest, told.append toldRest⟩
  | failed executed => exact executed.exists_told admitting

/-- A pass that completes no run is not told of as run. -/
theorem Passage.ran_notMem {runs : List PassRun} (passage : Passage registry session runs after)
    (resolved : registry.Resolved) {level : Level} {entries : List JournalEntry}
    (told : PassRun.Told registry level runs entries) {id : PassId} (inside : id < registry.size)
    (uncompleted : ∀ run ∈ runs, ∀ changed, run.result = .ok changed → id ≠ run.pass)
    (changed : Bool) :
    .noticed (.ran (registry.name id) changed) ∉ entries := by
  intro isTold
  have isCompleted : (registry.name id, changed) ∈ entries.filterMap JournalEntry.ran? :=
    List.mem_filterMap.2 ⟨_, isTold, rfl⟩
  rw [told.completed] at isCompleted
  obtain ⟨run, isRun, tells⟩ := List.mem_filterMap.1 isCompleted
  obtain ⟨sameName, isOk⟩ := PassRun.completed?_eq_some.1 tells
  have same := resolved.name_injective (passage.lt_size run isRun) inside sameName
  exact uncompleted run isRun changed isOk same.symm

end Journal

/-! ## The passage of a demand -/

/-- A pass that is executed comes to one run, unless it is refused beforehand. -/
theorem Executed.passage {session : Session Instance World} {id : PassId}
    {attempt : Attempt Instance World Bool} (executed : Executed registry session id attempt) :
    Passage registry session (PassRun.ofExecution id attempt.1) attempt.2 := by
  cases executed with
  | unknown => exact .refl session
  | stale => exact .refl session
  | failed found fresh ran =>
      have done := Executed.failed found fresh ran
      rw [← Registry.name_of_pass? found] at done
      exact .failed done
  | ran found fresh ran => exact .ran (.ran found fresh ran) (.refl _)

/-- A failed run is the failure of the whole. -/
def Failing (registry : Registry Instance) (runs : List PassRun) {α : Type}
    (result : Except ScheduleError α) : Prop :=
  ∀ run ∈ runs, ∀ cause, run.result = .error cause →
    result = .error (.passFailed (registry.name run.pass) cause)

theorem completed_of_failing {runs : List PassRun} {α : Type} {answer : α}
    (failing : Failing registry runs (.ok answer : Except ScheduleError α)) :
    ∀ run ∈ runs, ∃ changed, run.result = .ok changed := by
  intro run isRun
  cases ended : run.result with
  | ok changed => exact ⟨changed, rfl⟩
  | error cause => cases failing run isRun cause ended

theorem Failing.append {runs more : List PassRun} {α : Type} {result : Except ScheduleError α}
    (completed : ∀ run ∈ runs, ∃ changed, run.result = .ok changed)
    (failing : Failing registry more result) :
    Failing registry (runs ++ more) result := by
  refine List.forall_mem_append.2 ⟨fun run isRun cause ended => ?_, failing⟩
  obtain ⟨changed, isOk⟩ := completed run isRun
  cases isOk.symm.trans ended

/-- Only the error counts, not what an answer would be. -/
theorem Failing.of_error {runs : List PassRun} {α β : Type} {error : ScheduleError}
    (failing : Failing registry runs (.error error : Except ScheduleError α)) :
    Failing registry runs (.error error : Except ScheduleError β) := by
  intro run isRun cause ended
  rw [Except.error.inj (failing run isRun cause ended)]

theorem Executed.failing {session : Session Instance World} {id : PassId}
    {attempt : Attempt Instance World Bool} (executed : Executed registry session id attempt) :
    Failing registry (PassRun.ofExecution id attempt.1) attempt.1 := by
  intro run isRun cause ended
  cases executed with
  | unknown => cases isRun
  | stale => cases isRun
  | failed found _ _ =>
      obtain rfl := List.mem_singleton.1 isRun
      cases ended
      rw [Registry.name_of_pass? found]
  | ran =>
      obtain rfl := List.mem_singleton.1 isRun
      cases ended

/-- What runs while prerequisites are met is none of the passes that wait, and is required by one of
the prerequisites or is that itself. -/
theorem Met.exists_passage {path pending : List PassId} {session : Session Instance World}
    {attempt : Attempt Instance World Unit} (met : Met registry path pending session attempt) :
    ∃ runs, Passage registry session runs attempt.2 ∧
      (∀ run ∈ runs, run.pass ∉ path ∧
        ∃ next ∈ pending, ReflTransGen registry.Requires next run.pass) ∧
      Failing registry runs attempt.1 := by
  -- What runs for `next` waits for it as well, and is required by one of its prerequisites.
  have above : ∀ {path pending : List PassId} {next : PassId} {run : PassRun},
      (run.pass ∉ next :: path ∧ ∃ first ∈ registry.requirements next,
        ReflTransGen registry.Requires first run.pass) →
      run.pass ∉ path ∧ ∃ start ∈ next :: pending,
        ReflTransGen registry.Requires start run.pass := by
    rintro path pending next run ⟨offPath, first, requires, way⟩
    exact ⟨fun onPath => offPath (List.mem_cons_of_mem _ onPath), next, List.mem_cons_self,
      .head requires way⟩
  induction met with
  | @done path session => exact ⟨[], .refl session, by simp, by simp [Failing]⟩
  | @circular path pending next session =>
      exact ⟨[], .refl session, by simp, by simp [Failing]⟩
  | @tooDeep path pending next session =>
      exact ⟨[], .refl session, by simp, by simp [Failing]⟩
  | cached valid _ inductionHypothesis =>
      obtain ⟨runs, passage, confined, failing⟩ := inductionHypothesis
      refine ⟨runs, .cached valid passage, fun run isRun => ?_, failing⟩
      obtain ⟨offPath, next, isPending, way⟩ := confined run isRun
      exact ⟨offPath, next, List.mem_cons_of_mem _ isPending, way⟩
  | blocked _ _ _ _ inductionHypothesis =>
      obtain ⟨runs, passage, confined, failing⟩ := inductionHypothesis
      exact ⟨runs, passage, fun run isRun => above (confined run isRun), failing⟩
  | @failed path pending next error session between after _ offPath _ _ executed
      inductionHypothesis =>
      obtain ⟨runs, passage, confined, failing⟩ := inductionHypothesis
      have completed := completed_of_failing failing
      refine ⟨runs ++ PassRun.ofExecution next (.error error),
        passage.trans completed executed.passage,
        List.forall_mem_append.2 ⟨fun run isRun => above (confined run isRun), ?_⟩,
        .append completed executed.failing.of_error⟩
      intro run isRun
      rw [PassRun.pass_of_mem_ofExecution isRun]
      exact ⟨offPath, next, List.mem_cons_self, .refl⟩
  | @ran path pending next changed session between after attempt _ offPath _ _ executed _
      aboveHypothesis restHypothesis =>
      obtain ⟨runs, passage, confined, failing⟩ := aboveHypothesis
      obtain ⟨others, rest, othersConfined, othersFailing⟩ := restHypothesis
      have completed := completed_of_failing failing
      have ownFailing : Failing registry (⟨next, .ok changed⟩ :: others) attempt.1 :=
        @Failing.append _ registry [⟨next, .ok changed⟩] others _ _ (by simp) othersFailing
      refine ⟨runs ++ ⟨next, .ok changed⟩ :: others,
        passage.trans completed (.ran executed rest),
        List.forall_mem_append.2 ⟨fun run isRun => above (confined run isRun),
          List.forall_mem_cons.2 ⟨⟨offPath, next, List.mem_cons_self, .refl⟩, ?_⟩⟩,
        .append completed ownFailing⟩
      intro run isRun
      obtain ⟨offPath, start, isPending, way⟩ := othersConfined run isRun
      exact ⟨offPath, start, List.mem_cons_of_mem _ isPending, way⟩

/-! ## Demands -/

/-- What a demand has come to: the runs on its way, of which the journal tells in some entries, and
what they have done to the states of passes. -/
structure Confined (registry : Registry Instance) (session : Session Instance World) (root : PassId)
    (runs : List PassRun) (entries : List JournalEntry) (attempt : Attempt Instance World Bool) :
    Prop where
  passage : Passage registry (session.note (.demanded (registry.name root))) runs attempt.2
  recorded : session.Records (.demanded (registry.name root) :: entries) attempt.2
  told : PassRun.Told registry session.level runs entries
  required : ∀ run ∈ runs, run.pass ∈ registry.requiredPasses root
  answered : ∀ changed, attempt.1 = .ok changed →
    ∃ others, runs = others ++ [⟨root, .ok changed⟩] ∧ ∀ run ∈ others, run.pass ≠ root
  refused : ∀ error, attempt.1 = .error error →
    (∀ changed, .noticed (.ran (registry.name root) changed) ∉ entries) ∧
      attempt.2.validity.state root = session.validity.state root
  failed : ∀ earlier id cause later, runs = earlier ++ ⟨id, .error cause⟩ :: later →
    later = [] ∧ attempt.1 = .error (.passFailed (registry.name id) cause) ∧
      ∃ between,
        Passage registry (session.note (.demanded (registry.name root))) earlier between ∧
        Executed registry between id (.error (.passFailed (registry.name id) cause), attempt.2) ∧
        attempt.2.validity = between.validity ∧ attempt.2.trace = between.trace
  outside : ∀ id, id ∉ registry.requiredPasses root →
    (session.validity.state id).Fades (attempt.2.validity.state id)

/-- The runs of a demand: those of other passes, which the demanded pass requires, and then at most
one of the pass itself, which is completed iff there is an answer. -/
theorem Demanded.exists_passage {session : Session Instance World} {root : PassId}
    {descriptor : Descriptor} {attempt : Attempt Instance World Bool}
    (demanded : Demanded registry session root attempt)
    (found : registry.descriptor? root = some descriptor)
    (enabled : descriptor.isEnabledAt session.level) (invalid : ¬ session.isValid root) :
    ∃ others last,
      Passage registry (session.note (.demanded (registry.name root))) (others ++ last)
        attempt.2 ∧
      (∀ run ∈ others, run.pass ≠ root ∧ ReflTransGen registry.Requires root run.pass) ∧
      (∀ run ∈ last, run.pass = root) ∧ Failing registry (others ++ last) attempt.1 ∧
      (∀ changed, attempt.1 = .ok changed → last = [⟨root, .ok changed⟩]) ∧
      ∀ error, attempt.1 = .error error → ∀ run ∈ last, ∀ changed, run.result ≠ .ok changed := by
  have named : registry.name root = descriptor.name := by simp [Registry.name, found]
  rw [named]
  cases demanded with
  | unknown missing => cases found.symm.trans missing
  | skipped isDescriptor gated =>
      cases found.symm.trans isDescriptor
      exact absurd enabled gated
  | cached _ _ valid => exact absurd valid invalid
  | blocked isDescriptor _ _ met =>
      cases found.symm.trans isDescriptor
      obtain ⟨runs, passage, confined, failing⟩ := met.exists_passage
      refine ⟨runs, [], by simpa using passage, fun run isRun => ?_, by simp,
        by simpa using failing.of_error, by simp, by simp⟩
      obtain ⟨offPath, next, requires, way⟩ := confined run isRun
      exact ⟨by simpa using offPath, .head requires way⟩
  | ran isDescriptor _ _ met executed =>
      cases found.symm.trans isDescriptor
      obtain ⟨runs, passage, confined, failing⟩ := met.exists_passage
      have completed := completed_of_failing failing
      refine ⟨runs, PassRun.ofExecution root attempt.1, passage.trans completed executed.passage,
        fun run isRun => ?_, fun run isRun => PassRun.pass_of_mem_ofExecution isRun,
        .append completed executed.failing, ?_, ?_⟩
      · obtain ⟨offPath, next, requires, way⟩ := confined run isRun
        exact ⟨by simpa using offPath, .head requires way⟩
      · intro changed answered
        rw [answered]
        rfl
      · intro error failed run isRun changed isOk
        rw [failed] at isRun
        exact PassRun.result_ne_ok_of_mem_ofExecution isRun changed isOk

/-- Only the passes that a demanded one requires run on its behalf, and the pass itself is completed
once, at the end, if there is an answer and not at all if there is none. Until then its state stays
as it was, and no other pass gets a new state without a run but loses its validity at most. A run
that fails ends the demand and leaves all states as it found them. -/
theorem Reachable.demand_confined {session : Session Instance World}
    (reachable : Reachable registry session) (accepted : registry.Accepted) {root : PassId}
    {descriptor : Descriptor} (found : registry.descriptor? root = some descriptor)
    (enabled : descriptor.isEnabledAt session.level) (invalid : ¬ session.isValid root) :
    ∃ runs entries,
      Confined registry session root runs entries (session.demand registry root) := by
  generalize goes : session.demand registry root = attempt
  have demanded := goes ▸ demanded registry session root
  have resolved := accepted.resolved
  have inside := Registry.lt_size_of_descriptor? found
  obtain ⟨others, last, passage, areOthers, areLast, failing, answered, refused⟩ :=
    demanded.exists_passage found enabled invalid
  have required : ∀ run ∈ others ++ last, ReflTransGen registry.Requires root run.pass := by
    refine List.forall_mem_append.2 ⟨fun run isRun => (areOthers run isRun).2, fun run isRun => ?_⟩
    rw [areLast run isRun]
  obtain ⟨first, started⟩ := reachable.startedAt
  have opened := session.records_demanded (registry.name root)
  have admitting : (session.note (.demanded (registry.name root))).Admitting registry first :=
    (started.admitting accepted).after_calm_entry opened rfl rfl rfl
  have admits : registry.Admits session.level root := ⟨_, found, of_decide_eq_true enabled⟩
  obtain ⟨entries, recorded, told⟩ := passage.exists_told
    (fun run isRun => accepted.admits_of_reflTransGen admits (required run isRun)) admitting
  refine ⟨others ++ last, entries, passage, opened.trans recorded, told, fun run isRun => ?_,
    fun changed isOk => ?_, fun error isError => ?_, ?_, fun id isOutside => ?_⟩
  · exact (resolved.mem_requiredPasses inside).2 (required run isRun)
  · exact ⟨others, by rw [answered changed isOk], fun run isRun => (areOthers run isRun).1⟩
  · -- Without a run completed, the pass could only lose a validity, and it has none.
    have uncompleted : ∀ run ∈ others ++ last, ∀ changed, run.result = .ok changed →
        root ≠ run.pass := by
      refine List.forall_mem_append.2 ⟨fun run isRun _ _ => (areOthers run isRun).1.symm, ?_⟩
      exact fun run isRun changed isOk => absurd isOk (refused error isError run isRun changed)
    refine ⟨passage.ran_notMem resolved told inside uncompleted, ?_⟩
    refine (passage.fades uncompleted).eq_of_ne_valid fun valid => invalid ?_
    exact (ValiditySet.isValid_iff _ _).2 valid
  · intro earlier id cause later split
    obtain ⟨isLast, between⟩ := passage.failed_last split
    exact ⟨isLast, failing ⟨id, .error cause⟩ (by simp [split]) cause rfl, between⟩
  · refine passage.fades fun run isRun changed _ same => isOutside ?_
    rw [same]
    exact (resolved.mem_requiredPasses inside).2 (required run isRun)

end Session

/-- A pass that can be run a number of times and fails from then on. -/
structure Candle where
  runsLeft : Nat

instance : Pass Candle Unit where
  run candle world :=
    match candle.runsLeft with
    | 0 => (.error (.internal "burnt down"), candle, world)
    | left + 1 => (.ok true, ⟨left⟩, world)

namespace Candle

/-- A transformation that fails and its prerequisites, one of which makes an analysis stale that no
pass requires. -/
def burning : List (ResolvedPass Candle) :=
  [⟨⟨Descriptor.analysis "wick", fun _ => ⟨1⟩⟩, [], []⟩,
    ⟨⟨((Descriptor.transformation "trim").requiring "wick").invalidating "smoke", fun _ => ⟨1⟩⟩,
      [0], [2]⟩,
    ⟨⟨Descriptor.analysis "smoke", fun _ => ⟨1⟩⟩, [], []⟩,
    ⟨⟨((Descriptor.transformation "snuff").requiring "trim").invalidating "wick", fun _ => ⟨0⟩⟩,
      [1], [0]⟩]

theorem accepted_burning : (Registry.ofPasses burning).Accepted := by
  have registered : (Registrations.mk (burning.map ResolvedPass.toRegistration)).Registered :=
    (((Registrations.Registered.empty.add burning[0].toRegistration rfl).add
      burning[1].toRegistration rfl).add burning[2].toRegistration rfl).add
      burning[3].toRegistration rfl
  have faultless : (Registry.ofPasses burning).fault? = none := by cbv
  exact ⟨_, registered, Registry.build_of_resolved rfl faultless⟩

/-- The session in which that analysis is valid, and nothing else is. -/
def smoking : Session Candle Unit :=
  Session.performAll (.ofPasses burning) (.start (.ofPasses burning) 0 ()) [.demand 2]

/-- The analysis that the failed pass lists stays valid, that pass keeps its state, and the analysis
outside has lost its validity to a prerequisite that was completed before. -/
theorem demand_confined_burning :
    let registry := Registry.ofPasses burning
    let attempt := smoking.demand registry 3
    registry.Accepted ∧ Session.Reachable registry smoking ∧
      (∃ runs entries, Session.Confined registry smoking 3 runs entries attempt) ∧
      attempt.1 = .error (.passFailed "snuff" (.internal "burnt down")) ∧
      registry.ids.map smoking.validity.state =
        [.unscheduled, .unscheduled, .valid, .unscheduled] ∧
      registry.ids.map attempt.2.validity.state =
        [.valid, .ranTransient, .invalidated, .unscheduled] := by
  intro registry attempt
  have reachable : Session.Reachable registry smoking := .performed (.start 0 ()) (.demand 2)
  have invalid : smoking.isValid 3 = false := by cbv
  have failed : (smoking.demand (.ofPasses burning) 3).1 =
      .error (.passFailed "snuff" (.internal "burnt down")) := by
    cbv
  have before : (Registry.ofPasses burning).ids.map smoking.validity.state =
      [.unscheduled, .unscheduled, .valid, .unscheduled] := by
    cbv
  have after : (Registry.ofPasses burning).ids.map
        (smoking.demand (.ofPasses burning) 3).2.validity.state =
      [.valid, .ranTransient, .invalidated, .unscheduled] := by
    cbv
  have confined : ∃ runs entries, Session.Confined registry smoking 3 runs entries attempt :=
    reachable.demand_confined accepted_burning rfl rfl (by simp [invalid])
  exact ⟨accepted_burning, reachable, confined, failed, before, after⟩

end Candle

end PassScheduler
