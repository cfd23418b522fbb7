import PassScheduler.Proofs.Collection.Occurrence
import PassScheduler.Proofs.Registry.Configuration
import PassScheduler.Proofs.Schedule.Changes
import PassScheduler.Proofs.Schedule.Circularity

/-!
Contract: no pass is entered below its level.

A demand looks at the level of the demanded pass only. What runs on its behalf takes part as well
because no pass of an accepted registry requires one of a higher level. The level may change
between demands, and the journal tells which one was active when a run was entered.

Owns:
- that what takes part at a level is closed under requirements and grows with the level;
- the level that is active after a history;
- that every instance that a session keeps was made for the level of the session;
- that every entered run, whether demanded or on behalf of another pass, takes part at the level
  that is active where it is entered, and all that the demand of a gated pass does.

Does not own: which passes run.
-/

namespace PassScheduler

/-! ## What takes part at a level -/

namespace Registry

variable {Instance : Type} {registry : Registry Instance}

/-- A pass takes part at a level. -/
def Admits (registry : Registry Instance) (level : Level) (id : PassId) : Prop :=
  ∃ descriptor, registry.descriptor? id = some descriptor ∧ descriptor.minLevel ≤ level

theorem mem_candidates {level : Level} {id : PassId} :
    id ∈ registry.candidates level ↔ registry.Admits level id := by
  unfold candidates Admits
  rw [List.mem_filter]
  cases found : registry.descriptor? id with
  | none => simp
  | some descriptor =>
      have inside : id ∈ registry.ids := List.mem_range.2 (lt_size_of_descriptor? found)
      simp [inside, Descriptor.isEnabledAt]

theorem candidates_mono {lower higher : Level} (least : lower ≤ higher) :
    List.Sublist (registry.candidates lower) (registry.candidates higher) := by
  apply List.monotone_filter_right
  intro id takesPart
  cases found : registry.descriptor? id with
  | none => simp [found] at takesPart
  | some descriptor =>
      simp only [found, Option.map_some, Option.getD_some, Descriptor.isEnabledAt,
        decide_eq_true_eq] at takesPart ⊢
      exact UInt32.le_trans takesPart least

/-- What a pass requires takes part wherever the pass does. -/
theorem Accepted.admits_requirements (accepted : registry.Accepted) {level : Level}
    {dependent : PassId} (admits : registry.Admits level dependent) :
    ∀ prerequisite ∈ registry.requirements dependent, registry.Admits level prerequisite := by
  intro prerequisite requires
  obtain ⟨registrations, registered, built⟩ := accepted
  obtain ⟨resolves, _⟩ := resolves_of_build registered built
  obtain ⟨_, _, leveled, _⟩ := Registrations.sound_of_build registered built
  obtain ⟨descriptor, found, isLow⟩ := admits
  have inside : prerequisite < registry.size :=
    Resolved.requirement_lt ⟨registrations, resolves⟩ requires
  obtain ⟨requirement, isRequirement, _⟩ := resolves.exists_descriptor inside
  have lower : requirement.minLevel ≤ descriptor.minLevel := by
    apply leveled dependent prerequisite
    · rw [resolves.requires_eq]
      exact requires
    · rw [resolves.descriptor?_eq, found]
    · exact isRequirement
  rw [resolves.descriptor?_eq] at isRequirement
  exact ⟨requirement, isRequirement, UInt32.le_trans lower isLow⟩

/-- What the maker of an instance was told is the name of a pass and a level at which that pass
takes part. -/
def Entitles (registry : Registry Instance) (level : Level) (context : Context) : Prop :=
  ∃ id descriptor, registry.descriptor? id = some descriptor ∧
    context = ⟨descriptor.name, level⟩ ∧ descriptor.minLevel ≤ level

theorem Admits.entitles {level : Level} {id : PassId} (admits : registry.Admits level id) :
    registry.Entitles level ⟨registry.name id, level⟩ := by
  obtain ⟨descriptor, found, isLow⟩ := admits
  exact ⟨id, descriptor, found, by simp [name, found], isLow⟩

end Registry

/-! ## The level that a journal tells -/

namespace JournalEntry

/-- The active level after an entry. -/
def nextLevel (level : Level) : JournalEntry → Level
  | .levelSet changed => changed
  | _ => level

/-- An entry that neither changes the level nor enters a run. -/
def isCalm : JournalEntry → Bool
  | .levelSet _ => false
  | .entered _ => false
  | _ => true

theorem nextLevel_of_calm {entry : JournalEntry} (calm : entry.isCalm) (level : Level) :
    entry.nextLevel level = level := by
  cases entry with
  | levelSet changed => cases calm
  | _ => rfl

end JournalEntry

/-- The active level after a history that began at a level. -/
def levelAfter (first : Level) (history : List JournalEntry) : Level :=
  history.foldl JournalEntry.nextLevel first

theorem levelAfter_append (first : Level) (history entries : List JournalEntry) :
    levelAfter first (history ++ entries) = levelAfter (levelAfter first history) entries :=
  List.foldl_append

theorem levelAfter_of_calm {entries : List JournalEntry} (calm : ∀ entry ∈ entries, entry.isCalm)
    (first : Level) :
    levelAfter first entries = first := by
  induction entries with
  | nil => rfl
  | cons entry entries inductionHypothesis =>
      obtain ⟨isCalm, others⟩ := List.forall_mem_cons.1 calm
      show levelAfter (entry.nextLevel first) entries = first
      rw [entry.nextLevel_of_calm isCalm]
      exact inductionHypothesis others

/-- Every run that a history enters takes part at the level that is active there. -/
def Gated {Instance : Type} (registry : Registry Instance) (first : Level)
    (history : List JournalEntry) : Prop :=
  ∀ before context after, history = before ++ .entered context :: after →
    registry.Entitles (levelAfter first before) context

theorem Gated.append {Instance : Type} {registry : Registry Instance} {first : Level}
    {history entries : List JournalEntry} (gated : Gated registry first history)
    (rest : Gated registry (levelAfter first history) entries) :
    Gated registry first (history ++ entries) := by
  intro before context after split
  rcases append_eq_append_cons_iff.1 split with ⟨middle, isOld, _⟩ | ⟨middle, rfl, isNew⟩
  · exact gated before context middle isOld
  · rw [levelAfter_append]
    exact rest middle context after isNew

theorem gated_of_calm {Instance : Type} (registry : Registry Instance) (first : Level)
    {entries : List JournalEntry} (calm : ∀ entry ∈ entries, entry.isCalm) :
    Gated registry first entries := by
  intro before context after split
  have isCalm : (JournalEntry.entered context).isCalm := calm _ (by simp [split])
  cases isCalm

namespace Session

variable {Instance World : Type} {registry : Registry Instance} {first : Level}

/-! ## What a session keeps -/

/-- The level of a session is the one that its journal tells, its instances were made for that
level, and what was entered took part. -/
structure Admitting (registry : Registry Instance) (first : Level)
    (session : Session Instance World) : Prop where
  level : session.level = levelAfter first session.history
  made : ∀ id binding, session.binding? id = some binding →
    binding.context = ⟨registry.name id, session.level⟩
  gated : Gated registry first session.history

namespace Admitting

variable {session : Session Instance World}

/-- What adds calm entries only, and leaves level and instances alone, keeps everything. -/
theorem after_calm {after : Session Instance World} {entries : List JournalEntry}
    (admitting : session.Admitting registry first) (recorded : session.Records entries after)
    (calm : ∀ entry ∈ entries, entry.isCalm) (sameLevel : after.level = session.level)
    (sameInstances : after.instances = session.instances) :
    after.Admitting registry first where
  level := by
    rw [sameLevel, recorded.history, levelAfter_append, levelAfter_of_calm calm]
    exact admitting.level
  made id binding isKept := by
    rw [binding?, sameInstances] at isKept
    rw [sameLevel]
    exact admitting.made id binding isKept
  gated := by
    rw [recorded.history]
    exact admitting.gated.append (gated_of_calm registry _ calm)

theorem after_calm_entry {after : Session Instance World} {entry : JournalEntry}
    (admitting : session.Admitting registry first) (recorded : session.Records [entry] after)
    (calm : entry.isCalm) (sameLevel : after.level = session.level)
    (sameInstances : after.instances = session.instances) :
    after.Admitting registry first :=
  admitting.after_calm recorded (List.forall_mem_singleton.2 calm) sameLevel sameInstances

theorem keep (admitting : session.Admitting registry first) {id : PassId}
    {binding : Binding Instance} (isMade : binding.context = ⟨registry.name id, session.level⟩) :
    (session.keep id binding).Admitting registry first where
  level := admitting.level
  made other kept isKept := by
    rw [binding?_keep] at isKept
    by_cases replaced : id = other ∧ id < session.instances.length
    · rw [if_pos replaced] at isKept
      obtain ⟨rfl, _⟩ := replaced
      rw [← Option.some.inj isKept]
      exact isMade
    · rw [if_neg replaced] at isKept
      exact admitting.made other kept isKept
  gated := admitting.gated

/-- The instance that a pass is run by was made for the level of the session. -/
theorem obtain (admitting : session.Admitting registry first) {id : PassId}
    {pass : ResolvedPass Instance} (found : registry.pass? id = some pass) :
    (session.obtain id pass).1.context = ⟨registry.name id, session.level⟩ ∧
      (session.obtain id pass).2.Admitting registry first := by
  unfold Session.obtain
  cases isKept : session.binding? id with
  | some binding => exact ⟨admitting.made id binding isKept, admitting⟩
  | none =>
      have isMade : Context.mk pass.descriptor.name session.level =
          ⟨registry.name id, session.level⟩ := by
        rw [Registry.name_of_pass? found]
      let entry : JournalEntry := .created ⟨pass.descriptor.name, session.level⟩
      have noted : (session.note entry).Admitting registry first :=
        admitting.after_calm_entry (session.records_note rfl) rfl rfl rfl
      exact ⟨isMade, noted.keep isMade⟩

theorem note_entered (admitting : session.Admitting registry first) {context : Context}
    (entitles : registry.Entitles session.level context) :
    (session.note (.entered context)).Admitting registry first where
  level := by
    rw [(session.records_note rfl).history, levelAfter_append]
    exact admitting.level
  made := admitting.made
  gated := by
    rw [(session.records_note rfl).history]
    apply admitting.gated.append
    intro before other after split
    rw [← admitting.level]
    cases before with
    | nil =>
        obtain ⟨isContext, _⟩ := List.cons.inj split
        cases isContext
        exact entitles
    | cons => simp at split

theorem conclude (admitting : session.Admitting registry first) (id : PassId) (kind : PassKind) :
    (session.conclude registry id kind).Admitting registry first := by
  obtain ⟨entries, recorded, each⟩ := session.records_foldl_invalidate registry (registry.stale id)
  obtain ⟨sameLevel, sameInstances, _⟩ := conclude_frame registry session id kind
  have concluded : session.Records entries (session.conclude registry id kind) :=
    ⟨recorded.history, recorded.trace⟩
  apply admitting.after_calm concluded ?_ sameLevel sameInstances
  intro entry member
  obtain ⟨stale, rfl⟩ := each entry member
  rfl

/-- A change of level gives up every instance that was made for another one. -/
theorem setLevel (admitting : session.Admitting registry first) (level : Level) :
    (session.setLevel level).Admitting registry first where
  level := by
    rw [(session.records_setLevel level).history, levelAfter_append]
    rfl
  made id binding isKept := by
    have noneKept : (session.setLevel level).binding? id = none := binding?_of_none rfl id
    cases noneKept.symm.trans isKept
  gated := by
    rw [(session.records_setLevel level).history]
    apply admitting.gated.append
    intro before context rest split
    cases before with
    | nil => cases split
    | cons => simp at split

theorem start (registry : Registry Instance) (level : Level) (world : World) :
    (Session.start registry level world).Admitting registry level where
  level := rfl
  made id binding isKept := by
    have noneKept : (Session.start registry level world).binding? id = none :=
      binding?_of_none rfl id
    cases noneKept.symm.trans isKept
  gated := gated_of_calm registry level (by simp [history, Session.start])

variable [Pass Instance World]

theorem enter (admitting : session.Admitting registry first) {id : PassId}
    {binding : Binding Instance} (admits : registry.Admits session.level id)
    (isMade : binding.context = ⟨registry.name id, session.level⟩) :
    (session.enter id binding).2.Admitting registry first := by
  have noted : (session.note (.entered binding.context)).Admitting registry first := by
    apply admitting.note_entered
    rw [isMade]
    exact admits.entitles
  let bound := (Pass.run binding.bound session.world).2.1
  have kept : ((session.note (.entered binding.context)).keep id
      { binding with bound := bound }).Admitting registry first := noted.keep isMade
  exact ⟨kept.level, kept.made, kept.gated⟩

/-- The run of a pass that takes part. -/
theorem runPass (admitting : session.Admitting registry first) {id : PassId}
    {pass : ResolvedPass Instance} (found : registry.pass? id = some pass)
    (admits : registry.Admits session.level id) :
    (session.runPass id pass).2.Admitting registry first := by
  obtain ⟨isMade, obtained⟩ := admitting.obtain found
  have sameLevel : (session.obtain id pass).2.level = session.level :=
    (session.obtain_frame id pass).1
  rw [← sameLevel] at admits isMade
  exact obtained.enter admits isMade

end Admitting

/-! ## What a demand keeps -/

section Demand

variable [Pass Instance World] {session : Session Instance World}

theorem Executed.admitting {id : PassId} {attempt : Attempt Instance World Bool}
    (executed : Executed registry session id attempt) (admits : registry.Admits session.level id)
    (admitting : session.Admitting registry first) :
    attempt.2.Admitting registry first := by
  cases executed with
  | unknown => exact admitting
  | stale => exact admitting
  | @failed pass cause after found _ ran =>
      have entered := admitting.runPass found admits
      rwa [ran] at entered
  | @ran pass changed after found _ ran =>
      have entered := admitting.runPass found admits
      rw [ran] at entered
      have told : (after.recordRan pass.descriptor.name changed).Admitting registry first :=
        entered.after_calm_entry (after.records_ran _ changed) rfl rfl rfl
      exact told.conclude id pass.descriptor.kind

/-- Prerequisites that take part are met by runs that take part. -/
theorem Met.admitting {path pending : List PassId} {attempt : Attempt Instance World Unit}
    (met : Met registry path pending session attempt) (accepted : registry.Accepted)
    (admits : ∀ next ∈ pending, registry.Admits session.level next)
    (admitting : session.Admitting registry first) :
    attempt.2.Admitting registry first := by
  induction met with
  | done => exact admitting
  | circular => exact admitting
  | tooDeep => exact admitting
  | @cached path pending next session attempt valid rest inductionHypothesis =>
      apply inductionHypothesis (List.forall_mem_cons.1 admits).2
      exact admitting.after_calm_entry (session.records_cached _) rfl rfl rfl
  | @blocked path pending next error session after _ _ _ met above =>
      have own := (List.forall_mem_cons.1 admits).1
      exact above (accepted.admits_requirements own) admitting
  | @failed path pending next error session between after _ _ _ met executed above =>
      have own := (List.forall_mem_cons.1 admits).1
      apply executed.admitting
      · rw [met.level]
        exact own
      · exact above (accepted.admits_requirements own) admitting
  | @ran path pending next changed session between after attempt _ _ _ met executed _ above rest =>
      obtain ⟨own, others⟩ := List.forall_mem_cons.1 admits
      have sameLevel : after.level = session.level := executed.level.trans met.level
      apply rest
      · rw [sameLevel]
        exact others
      · apply executed.admitting
        · rw [met.level]
          exact own
        · exact above (accepted.admits_requirements own) admitting

theorem Demanded.admitting {id : PassId} {attempt : Attempt Instance World Bool}
    (demanded : Demanded registry session id attempt) (accepted : registry.Accepted)
    (admitting : session.Admitting registry first) :
    attempt.2.Admitting registry first := by
  have opened : ∀ name, (session.note (.demanded name)).Admitting registry first :=
    fun name => admitting.after_calm_entry (session.records_demanded name) rfl rfl rfl
  have admits : ∀ {descriptor : Descriptor}, registry.descriptor? id = some descriptor →
      descriptor.isEnabledAt session.level → registry.Admits session.level id :=
    fun found enabled => ⟨_, found, of_decide_eq_true enabled⟩
  cases demanded with
  | unknown => exact admitting
  | @skipped descriptor =>
      exact (opened _).after_calm_entry (records_skipped _ descriptor) rfl rfl rfl
  | @cached descriptor =>
      exact (opened _).after_calm_entry (records_cached _ descriptor.name) rfl rfl rfl
  | blocked found enabled _ met =>
      have required := accepted.admits_requirements (admits found enabled)
      exact met.admitting accepted required (opened _)
  | ran found enabled _ met executed =>
      have own := admits found enabled
      apply executed.admitting
      · rw [met.level]
        exact own
      · exact met.admitting accepted (accepted.admits_requirements own) (opened _)

theorem Move.admitting {after : Session Instance World} (moved : Move registry session after)
    (accepted : registry.Accepted) (admitting : session.Admitting registry first) :
    after.Admitting registry first := by
  cases moved with
  | demand id => exact (demanded registry session id).admitting accepted admitting
  | reset => exact admitting.after_calm_entry session.records_reset rfl rfl rfl
  | told silent => exact admitting.after_calm_entry (session.records_told silent) rfl rfl rfl
  | clearTrace => exact ⟨admitting.level, admitting.made, admitting.gated⟩
  | setLevel level => exact admitting.setLevel level

end Demand

/-! ## Sessions by the level they began at -/

variable [Pass Instance World]

/-- The sessions that requests lead to from a level, each on the world that it is handed. -/
inductive StartedAt (registry : Registry Instance) (first : Level) :
    Session Instance World → Prop where
  | start (world : World) : StartedAt registry first (start registry first world)
  | handed {session : Session Instance World} (started : StartedAt registry first session)
      (world : World) : StartedAt registry first (session.handed world)
  | performed {session : Session Instance World} (started : StartedAt registry first session)
      (request : Request) : StartedAt registry first (session.perform registry request).2

theorem Reachable.startedAt {session : Session Instance World}
    (reachable : Reachable registry session) :
    ∃ first, StartedAt registry first session := by
  induction reachable with
  | start level world => exact ⟨level, .start world⟩
  | handed _ world inductionHypothesis =>
      obtain ⟨first, started⟩ := inductionHypothesis
      exact ⟨first, started.handed world⟩
  | performed _ request inductionHypothesis =>
      obtain ⟨first, started⟩ := inductionHypothesis
      exact ⟨first, started.performed request⟩

theorem StartedAt.admitting {session : Session Instance World}
    (started : StartedAt registry first session) (accepted : registry.Accepted) :
    session.Admitting registry first := by
  induction started with
  | start world => exact .start registry first world
  | handed _ world inductionHypothesis =>
      exact ⟨inductionHypothesis.level, inductionHypothesis.made, inductionHypothesis.gated⟩
  | @performed session _ request inductionHypothesis =>
      exact kept_of_moves (follows_perform session request).moves
        (fun _ _ moved held => moved.admitting accepted held) inductionHypothesis

/-- The demand of a pass that takes no part is answered at once: it opens, and the pass is skipped,
whatever its validity. -/
theorem demand_gated (session : Session Instance World) {id : PassId} {descriptor : Descriptor}
    (found : registry.descriptor? id = some descriptor)
    (gated : session.level < descriptor.minLevel) :
    session.demand registry id =
      (.ok false,
        { session with
          trace := session.trace.record ⟨descriptor.name, .skipped⟩
          journal := (session.journal.push (.demanded descriptor.name)).push
            (.noticed (.skipped descriptor.name descriptor.minLevel)) }) := by
  have disabled : descriptor.isEnabledAt session.level = false :=
    decide_eq_false (UInt32.not_le.2 gated)
  unfold demand
  simp only [found]
  rw [if_pos]
  · rfl
  · show (!descriptor.isEnabledAt session.level) = true
    rw [disabled]
    rfl

/-- Every run that is entered, demanded or on behalf of another pass, takes part at the level that
is active at that moment. What takes part at a level is closed under requirements and grows with
the level. The demand of a pass above the level records that it is skipped and does nothing else,
even if the pass is still valid from a higher level. -/
theorem StartedAt.entered_takes_part {session : Session Instance World}
    (started : StartedAt registry first session) (accepted : registry.Accepted) :
    (session.level = levelAfter first session.history ∧
        ∀ before context after, session.history = before ++ .entered context :: after →
          registry.Entitles (levelAfter first before) context) ∧
      (∀ level dependent prerequisite, dependent ∈ registry.candidates level →
        registry.Requires dependent prerequisite → prerequisite ∈ registry.candidates level) ∧
      (∀ lower higher, lower ≤ higher →
        List.Sublist (registry.candidates lower) (registry.candidates higher)) ∧
      ∀ id descriptor request, registry.descriptor? id = some descriptor →
        session.level < descriptor.minLevel → Demands registry id request →
          session.perform registry request =
            (.ok (.changed false),
              { session with
                trace := session.trace.record ⟨descriptor.name, .skipped⟩
                journal := (session.journal.push (.demanded descriptor.name)).push
                  (.noticed (.skipped descriptor.name descriptor.minLevel)) }) := by
  have admitting := started.admitting accepted
  refine ⟨⟨admitting.level, admitting.gated⟩, ?_, ?_, ?_⟩
  · intro level dependent prerequisite takesPart requires
    rw [Registry.mem_candidates] at takesPart ⊢
    exact accepted.admits_requirements takesPart prerequisite requires
  · intro lower higher least
    exact Registry.candidates_mono least
  · intro id descriptor request found gated demands
    have inside := Registry.lt_size_of_descriptor? found
    rw [demands.perform_eq accepted inside, session.demand_gated found gated]
    rfl

/-- An analysis of level 1, and a transformation of level 2 that requires it. -/
def leveled : List (ResolvedPass Reporter) :=
  [⟨⟨(Descriptor.analysis "alias").fromLevel 1, fun _ => ⟨false⟩⟩, [], []⟩,
    ⟨⟨((Descriptor.transformation "inline").fromLevel 2).requiring "alias", fun _ => ⟨true⟩⟩,
      [0], []⟩]

theorem accepted_leveled : (Registry.ofPasses leveled).Accepted := by
  have registered : (Registrations.mk (leveled.map ResolvedPass.toRegistration)).Registered :=
    (Registrations.Registered.empty.add leveled[0].toRegistration rfl).add
      leveled[1].toRegistration rfl
  have faultless : (Registry.ofPasses leveled).fault? = none := by cbv
  exact ⟨_, registered, Registry.build_of_resolved rfl faultless⟩

/-- The transformation is demanded at its level, which is then lowered below that of the analysis.
The analysis is still valid, was entered at level 2, and is skipped now. -/
theorem StartedAt.entered_takes_part_leveled :
    let registry := Registry.ofPasses leveled
    let session :=
      Session.performAll registry (Session.start registry 2 ()) [.demand 1, .setLevel 0]
    registry.Accepted ∧ StartedAt registry 2 session ∧ session.isValid 0 ∧
      registry.Entitles 2 ⟨"alias", 2⟩ ∧ session.level = 0 ∧
      (session.perform registry (.demandNamed "alias")).1 = .ok (.changed false) ∧
      (session.perform registry (.demandNamed "alias")).2.isValid 0 := by
  intro registry session
  have started : StartedAt registry 2 session :=
    .performed (.performed (.start ()) (.demand 1)) (.setLevel 0)
  obtain ⟨⟨level, entered⟩, _, _, skips⟩ := started.entered_takes_part accepted_leveled
  have history : session.history =
      [.demanded "inline", .created ⟨"alias", 2⟩] ++ .entered ⟨"alias", 2⟩ ::
        [.noticed (.ran "alias" false), .created ⟨"inline", 2⟩, .entered ⟨"inline", 2⟩,
          .noticed (.ran "inline" true), .levelSet 0] := by
    cbv
  have valid : session.isValid 0 := by
    cbv
  have lowered : session.level = 0 := by
    cbv
  have skipped := skips 0 _ (.demandNamed "alias") rfl (by rw [lowered]; decide) .byName
  refine ⟨accepted_leveled, started, valid, entered _ _ _ history, lowered, ?_, ?_⟩
  · rw [skipped]
  · rw [skipped]
    exact valid

end Session

end PassScheduler
