import PassScheduler.Proofs.Collection.Occurrence
import PassScheduler.Proofs.Registry.Standard
import PassScheduler.Proofs.Schedule.Freshness

/-!
Contract: every run in a journal was prepared by the runs before it.

When a pass runs, the latest run of each analysis that it requires is still good, and each
transformation that it requires has run within the demand that is under way.

Owns: what it means that a run was prepared, and that every run of every reachable session was.

Does not own: the order of runs within one demand.
-/

open Relation (ReflTransGen)

namespace PassScheduler.Session

variable {Instance World : Type} {registry : Registry Instance}

/-- The last part of a history, from the opening of the demand that is under way. -/
def Since (history rest : List JournalEntry) : Prop :=
  ∃ earlier root, history = earlier ++ .demanded root :: rest ∧
    ∀ entry ∈ rest, entry.demanded? = none

/-- A pass has run within the demand that is under way. -/
def RanInDemand (registry : Registry Instance) (history : List JournalEntry) (id : PassId) : Prop :=
  ∃ rest, Since history rest ∧ ∃ entry ∈ rest, entry.Tells registry id

/-- What a history has to hold for a pass to run next. -/
structure PreparedIn (registry : Registry Instance) (history : List JournalEntry) (id : PassId) :
    Prop where
  analysis : ∀ prerequisite, registry.Requires id prerequisite →
    registry.isAnalysis prerequisite → FreshIn registry history prerequisite
  transformation : ∀ prerequisite, registry.Requires id prerequisite →
    ¬ registry.isAnalysis prerequisite → RanInDemand registry history prerequisite

/-- Every run in a history is the run of a pass, and was prepared by what comes before it. -/
def Legal (registry : Registry Instance) (history : List JournalEntry) : Prop :=
  ∀ before name changed after, history = before ++ .noticed (.ran name changed) :: after →
    ∃ id < registry.size, registry.name id = name ∧ PreparedIn registry before id

/-! ## Longer histories -/

theorem Since.append {history rest entries : List JournalEntry} (since : Since history rest)
    (inDemand : ∀ entry ∈ entries, entry.demanded? = none) :
    Since (history ++ entries) (rest ++ entries) := by
  obtain ⟨earlier, root, split, none⟩ := since
  refine ⟨earlier, root, by simp [split], ?_⟩
  exact List.forall_mem_append.2 ⟨none, inDemand⟩

theorem RanInDemand.append {history entries : List JournalEntry} {id : PassId}
    (ran : RanInDemand registry history id)
    (inDemand : ∀ entry ∈ entries, entry.demanded? = none) :
    RanInDemand registry (history ++ entries) id := by
  obtain ⟨rest, since, entry, member, tells⟩ := ran
  exact ⟨_, since.append inDemand, entry, List.mem_append_left _ member, tells⟩

theorem PreparedIn.append_minor {history entries : List JournalEntry} {id : PassId}
    (prepared : PreparedIn registry history id) (minor : ∀ entry ∈ entries, entry.Minor) :
    PreparedIn registry (history ++ entries) id where
  analysis prerequisite required isAnalysis :=
    (prepared.analysis prerequisite required isAnalysis).append fun entry member =>
      (minor entry member).harmless prerequisite
  transformation prerequisite required isTransformation :=
    (prepared.transformation prerequisite required isTransformation).append fun entry member =>
      (minor entry member).demanded?

theorem Legal.append {history entries : List JournalEntry} (legal : Legal registry history)
    (quiet : ∀ entry ∈ entries, entry.ran? = none) :
    Legal registry (history ++ entries) := by
  intro before name changed after split
  rcases append_eq_append_cons_iff.1 split with ⟨rest, isOld, _⟩ | ⟨between, _, isNew⟩
  · exact legal before name changed rest isOld
  · cases quiet (.noticed (.ran name changed)) (by simp [isNew])

theorem Legal.append_ran {history : List JournalEntry} (legal : Legal registry history)
    {id : PassId} (inside : id < registry.size) (prepared : PreparedIn registry history id)
    (changed : Bool) :
    Legal registry (history ++ [.noticed (.ran (registry.name id) changed)]) := by
  intro before name flag after split
  rcases concat_eq_append_cons_iff.1 split with ⟨middle, isOld, _⟩ | ⟨rfl, isLast, _⟩
  · exact legal before name flag middle isOld
  · cases isLast
    exact ⟨id, inside, rfl, prepared⟩

/-! ## Prerequisites -/

/-- What the meeting of prerequisites adds to a history within one demand. -/
structure Prepares (registry : Registry Instance) (session : Session Instance World)
    (pending : List PassId) (attempt : Attempt Instance World Unit)
    (entries : List JournalEntry) : Prop where
  records : session.Records entries attempt.2
  inDemand : ∀ entry ∈ entries, entry.demanded? = none
  legal : Legal registry attempt.2.history
  ran : attempt.1 = .ok () → ∀ prerequisite ∈ pending, ¬ registry.isAnalysis prerequisite →
    ∃ entry ∈ entries, entry.Tells registry prerequisite

/-- What is added for the first prerequisite comes before what is added for the others. -/
private theorem Prepares.prepend {session between : Session Instance World}
    {pending : List PassId} {next : PassId} {attempt : Attempt Instance World Unit}
    {own entries : List JournalEntry} (prepares : Prepares registry between pending attempt entries)
    (records : session.Records own between) (inDemand : ∀ entry ∈ own, entry.demanded? = none)
    (ran : ¬ registry.isAnalysis next → ∃ entry ∈ own, entry.Tells registry next) :
    Prepares registry session (next :: pending) attempt (own ++ entries) where
  records := records.trans prepares.records
  inDemand := List.forall_mem_append.2 ⟨inDemand, prepares.inDemand⟩
  legal := prepares.legal
  ran := by
    intro succeeded prerequisite member isTransformation
    rcases List.mem_cons.1 member with rfl | isLater
    · obtain ⟨entry, isOwn, tells⟩ := ran isTransformation
      exact ⟨entry, List.mem_append_left _ isOwn, tells⟩
    · obtain ⟨entry, isOther, tells⟩ :=
        prepares.ran succeeded prerequisite isLater isTransformation
      exact ⟨entry, List.mem_append_right _ isOther, tells⟩

/-- Once the prerequisites of a pass are met within a demand, the transformations among them have
run within that demand. -/
private theorem Prepares.ranInDemand {session after : Session Instance World} {id : PassId}
    {entries rest : List JournalEntry}
    (prepares : Prepares registry session (registry.requirements id) (.ok (), after) entries)
    (since : Since session.history rest) :
    ∀ prerequisite, registry.Requires id prerequisite → ¬ registry.isAnalysis prerequisite →
      RanInDemand registry after.history prerequisite := by
  intro prerequisite required isTransformation
  obtain ⟨entry, member, tells⟩ := prepares.ran rfl prerequisite required isTransformation
  have sinceAfter := since.append prepares.inDemand
  rw [← prepares.records.history] at sinceAfter
  exact ⟨_, sinceAfter, entry, List.mem_append_right _ member, tells⟩

variable [Pass Instance World]

theorem Executed.legal {session : Session Instance World} {id : PassId}
    {attempt : Attempt Instance World Bool} (executed : Executed registry session id attempt)
    (legal : Legal registry session.history)
    (prepared : ∀ changed, attempt.1 = .ok changed → PreparedIn registry session.history id) :
    Legal registry attempt.2.history := by
  cases result : attempt.1 with
  | error error =>
      obtain ⟨entries, records, minor⟩ := executed.records_of_error result
      rw [records.history]
      exact legal.append fun entry member => (minor entry member).ran?
  | ok changed =>
      obtain ⟨first, last, records, firstMinor, lastMinor⟩ := executed.records_of_ok result
      have preparedHere := (prepared changed result).append_minor firstMinor
      have legalBefore := legal.append fun entry member => (firstMinor entry member).ran?
      have legalAfter := (legalBefore.append_ran (executed.inside_of_ok result) preparedHere
        changed).append fun entry member => (lastMinor entry member).ran?
      rw [records.history]
      simpa using legalAfter

theorem Executed.prepared {session : Session Instance World} {id : PassId} {changed : Bool}
    {attempt : Attempt Instance World Bool} (executed : Executed registry session id attempt)
    (succeeded : attempt.1 = .ok changed) (sound : session.Sound registry)
    (ran : ∀ prerequisite, registry.Requires id prerequisite →
      ¬ registry.isAnalysis prerequisite → RanInDemand registry session.history prerequisite) :
    PreparedIn registry session.history id := by
  cases executed with
  | ran _ fresh _ =>
      refine ⟨?_, ran⟩
      exact fun prerequisite required isAnalysis =>
        sound.fresh prerequisite (fresh prerequisite required isAnalysis)
  | _ => cases succeeded

theorem Met.prepares {path pending : List PassId} {session : Session Instance World}
    {attempt : Attempt Instance World Unit} (met : Met registry path pending session attempt)
    (accepted : registry.Accepted) (sound : session.Sound registry)
    (legal : Legal registry session.history) {rest : List JournalEntry}
    (since : Since session.history rest) :
    ∃ entries, Prepares registry session pending attempt entries := by
  induction met generalizing rest with
  | done => exact ⟨[], .refl _, by simp, legal, by simp⟩
  | circular => exact ⟨[], .refl _, by simp, legal, by simp⟩
  | tooDeep => exact ⟨[], .refl _, by simp, legal, by simp⟩
  | @cached path pending next session attempt valid met inductionHypothesis =>
      have reused := session.records_cached (registry.name next)
      have inDemand : ∀ entry ∈ [JournalEntry.noticed (.cached (registry.name next))],
          entry.demanded? = none := by
        simp [JournalEntry.demanded?]
      have soundAfter := (Step.cached valid).sound accepted.resolved sound
      have legalAfter : Legal registry (session.recordCached (registry.name next)).history := by
        rw [reused.history]
        exact legal.append (by simp [JournalEntry.ran?])
      have sinceAfter := since.append inDemand
      rw [← reused.history] at sinceAfter
      obtain ⟨entries, prepares⟩ := inductionHypothesis soundAfter legalAfter sinceAfter
      refine ⟨_, prepares.prepend reused inDemand ?_⟩
      exact fun isTransformation => absurd (sound.isAnalysis next valid) isTransformation
  | blocked _ _ _ _ above =>
      obtain ⟨entries, prepares⟩ := above sound legal since
      exact ⟨entries, prepares.records, prepares.inDemand, prepares.legal, by simp⟩
  | @failed path pending next error session between after _ _ _ met executed above =>
      obtain ⟨entries, prepares⟩ := above sound legal since
      obtain ⟨own, records, inDemand, _⟩ := executed.records
      refine ⟨entries ++ own, prepares.records.trans records, ?_, ?_, by simp⟩
      · exact List.forall_mem_append.2 ⟨prepares.inDemand, inDemand⟩
      · exact executed.legal prepares.legal (by simp)
  | @ran path pending next changed session between after _ _ _ _ met executed _ above others =>
      obtain ⟨entries, prepares⟩ := above sound legal since
      obtain ⟨own, records, inDemand, runs⟩ := executed.records
      have soundBetween := sound_of_steps met.steps accepted.resolved sound
      have soundAfter := (Step.executed executed).sound accepted.resolved soundBetween
      have prepared := executed.prepared rfl soundBetween (prepares.ranInDemand since)
      have legalAfter := executed.legal prepares.legal fun _ _ => prepared
      have both := prepares.records.trans records
      have bothInDemand := List.forall_mem_append.2 ⟨prepares.inDemand, inDemand⟩
      have sinceAfter := since.append bothInDemand
      rw [← both.history] at sinceAfter
      obtain ⟨more, preparesRest⟩ := others soundAfter legalAfter sinceAfter
      refine ⟨_, preparesRest.prepend both bothInDemand ?_⟩
      have ranNext := (runs (registry.name next) changed).2 ⟨rfl, rfl⟩
      exact fun _ => ⟨_, List.mem_append_right _ ranNext, changed, rfl⟩

/-! ## Demands and requests -/

theorem Demanded.legal {session : Session Instance World} {id : PassId}
    {attempt : Attempt Instance World Bool} (demanded : Demanded registry session id attempt)
    (accepted : registry.Accepted) (sound : session.Sound registry)
    (legal : Legal registry session.history) :
    Legal registry attempt.2.history := by
  have opened : ∀ name, (session.note (.demanded name)).Sound registry ∧
      Legal registry (session.note (.demanded name)).history ∧
      Since (session.note (.demanded name)).history [] := by
    intro name
    have noted := session.records_demanded name
    refine ⟨(Step.demanded session name).sound accepted.resolved sound, ?_, ?_⟩
    · rw [noted.history]
      exact legal.append (by simp [JournalEntry.ran?])
    · exact ⟨session.history, name, noted.history, by simp⟩
  cases demanded with
  | unknown => exact legal
  | @skipped descriptor =>
      obtain ⟨_, legalOpened, _⟩ := opened descriptor.name
      rw [(records_skipped _ descriptor).history]
      exact legalOpened.append (by simp [JournalEntry.ran?])
  | @cached descriptor =>
      obtain ⟨_, legalOpened, _⟩ := opened descriptor.name
      rw [(records_cached _ descriptor.name).history]
      exact legalOpened.append (by simp [JournalEntry.ran?])
  | @blocked descriptor _ _ _ _ _ met =>
      obtain ⟨soundOpened, legalOpened, since⟩ := opened descriptor.name
      obtain ⟨_, prepares⟩ := met.prepares accepted soundOpened legalOpened since
      exact prepares.legal
  | @ran descriptor between _ _ _ _ met executed =>
      obtain ⟨soundOpened, legalOpened, since⟩ := opened descriptor.name
      obtain ⟨_, prepares⟩ := met.prepares accepted soundOpened legalOpened since
      have soundBetween := sound_of_steps met.steps accepted.resolved soundOpened
      apply executed.legal prepares.legal
      intro changed succeeded
      exact executed.prepared succeeded soundBetween (prepares.ranInDemand since)

theorem Move.legal {before after : Session Instance World} (moved : Move registry before after)
    (accepted : registry.Accepted) (sound : before.Sound registry)
    (legal : Legal registry before.history) :
    Legal registry after.history := by
  cases moved with
  | demand id => exact (demanded registry before id).legal accepted sound legal
  | reset =>
      rw [before.records_reset.history]
      exact legal.append (by simp [JournalEntry.ran?])
  | setLevel level =>
      rw [(before.records_setLevel level).history]
      exact legal.append (by simp [JournalEntry.ran?])
  | told silent =>
      rw [(before.records_told silent).history]
      exact legal.append (by simpa using JournalEntry.ran?_of_silent silent)
  | clearTrace => exact legal

/-- What holds of a reachable session between any two requests. -/
structure Lawful (registry : Registry Instance) (session : Session Instance World) : Prop where
  sound : session.Sound registry
  legal : Legal registry session.history

theorem Lawful.moved {before after : Session Instance World} (lawful : before.Lawful registry)
    (accepted : registry.Accepted) (moves : ReflTransGen (Move registry) before after) :
    after.Lawful registry := by
  apply kept_of_moves moves _ lawful
  intro before after moved held
  exact ⟨sound_of_steps moved.steps accepted.resolved held.sound,
    moved.legal accepted held.sound held.legal⟩

theorem Reachable.lawful {session : Session Instance World}
    (reachable : Reachable registry session) (accepted : registry.Accepted) :
    session.Lawful registry := by
  apply reachable.invariant
  · intro level world
    refine ⟨sound_start registry level world, ?_⟩
    intro before name changed after split
    cases before <;> cases split
  · intro session world held
    exact ⟨⟨held.sound.fits, held.sound.isAnalysis, held.sound.fresh, held.sound.traced⟩,
      held.legal⟩
  · intro before after moved held
    exact held.moved accepted (.single moved)

/-- The trace of a reachable session holds the last events of its journal, and every run in the
journal was prepared by the entries before it. -/
theorem Reachable.runs_prepared {session : Session Instance World}
    (reachable : Reachable registry session) (accepted : registry.Accepted) :
    session.trace.toList <:+ session.history.filterMap JournalEntry.event? ∧
      ∀ before name changed after,
        session.history = before ++ .noticed (.ran name changed) :: after →
          ∃ id < registry.size, registry.name id = name ∧ PreparedIn registry before id := by
  obtain ⟨sound, legal⟩ := reachable.lawful accepted
  exact ⟨sound.traced, legal⟩

/-- A session over the standard passes in which `liveness` was demanded, which requires
`verify`. -/
def livenessDemanded : Session StandardPass Program :=
  ((Session.start (.ofPasses StandardPass.resolved) 2
    (.ofFunctions [⟨"main", [], [⟨"entry", [], .ret (.imm 0)⟩]⟩])).perform
      (.ofPasses StandardPass.resolved) (.demandNamed "liveness")).2

theorem Reachable.runs_prepared_liveness :
    (Registry.ofPasses StandardPass.resolved).Accepted ∧
      Reachable (.ofPasses StandardPass.resolved) livenessDemanded ∧
      livenessDemanded.history =
        livenessDemanded.history.take 6 ++ [.noticed (.ran "liveness" false)] ∧
      ∃ id < (Registry.ofPasses StandardPass.resolved).size,
        (Registry.ofPasses StandardPass.resolved).name id = "liveness" ∧
          PreparedIn (.ofPasses StandardPass.resolved) (livenessDemanded.history.take 6) id := by
  have accepted := StandardPass.accepted StandardPass.registry_eq
  have reachable : Reachable (.ofPasses StandardPass.resolved) livenessDemanded :=
    (Reachable.start 2 _).performed _
  have split : livenessDemanded.history =
      livenessDemanded.history.take 6 ++ [.noticed (.ran "liveness" false)] := by
    cbv
  have prepared := (reachable.runs_prepared accepted).2 _ "liveness" false [] split
  exact ⟨accepted, reachable, split, prepared⟩

end PassScheduler.Session
