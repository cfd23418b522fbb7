import PassScheduler.Proofs.Schedule.Course

/-!
Contract: a valid result is fresh.

Owns:
- what it means that the latest run of an analysis is still good, told by the journal alone;
- the invariant that ties validity to the journal and the journal to the trace;
- that every step keeps it.

Does not own: which prerequisites have run when a pass runs.
-/

open Relation (ReflTransGen)

namespace PassScheduler

namespace JournalEntry

variable {Instance : Type} {registry : Registry Instance}

/-- An entry for a completed run of a pass. -/
def Tells (registry : Registry Instance) (id : PassId) (entry : JournalEntry) : Prop :=
  ∃ changed, entry = .noticed (.ran (registry.name id) changed)

/-- An entry that leaves the result of a pass alone: no reset, no run of that pass, and no run that
reaches it. -/
def Harmless (registry : Registry Instance) (id : PassId) (entry : JournalEntry) : Prop :=
  entry ≠ .reset ∧ ∀ runner < registry.size, entry.Tells registry runner →
    runner ≠ id ∧ ¬ registry.Upsets runner id

theorem harmless_of_quiet {entry : JournalEntry} (quiet : entry.ran? = none)
    (notReset : entry ≠ .reset) (id : PassId) :
    entry.Harmless registry id := by
  refine ⟨notReset, ?_⟩
  rintro runner _ ⟨changed, rfl⟩
  cases quiet

theorem Minor.harmless {entry : JournalEntry} (minor : entry.Minor) (id : PassId) :
    entry.Harmless registry id :=
  harmless_of_quiet minor.ran? minor.ne_reset id

theorem ran?_of_silent {notice : Notice} (silent : notice.event? = none) :
    (JournalEntry.noticed notice).ran? = none := by
  cases notice with
  | ran pass changed => cases silent
  | _ => rfl

end JournalEntry

namespace Session

variable {Instance World : Type} {registry : Registry Instance}

/-- A pass has run, and every entry since its latest run is harmless to it. -/
def FreshIn (registry : Registry Instance) (history : List JournalEntry) (id : PassId) : Prop :=
  ∃ before entry after, history = before ++ entry :: after ∧ entry.Tells registry id ∧
    ∀ later ∈ after, later.Harmless registry id

theorem FreshIn.append {history entries : List JournalEntry} {id : PassId}
    (fresh : FreshIn registry history id)
    (harmless : ∀ later ∈ entries, later.Harmless registry id) :
    FreshIn registry (history ++ entries) id := by
  obtain ⟨before, entry, after, split, tells, earlier⟩ := fresh
  refine ⟨before, entry, after ++ entries, by simp [split], tells, ?_⟩
  intro later member
  rcases List.mem_append.1 member with isAfter | isNew
  · exact earlier later isAfter
  · exact harmless later isNew

/-- The trace holds the events of the journal from some entry on. -/
def Traced (session : Session Instance World) : Prop :=
  session.trace.toList <:+ session.history.filterMap JournalEntry.event?

/-- What holds of validity, journal and trace between any two decisions. -/
structure Sound (registry : Registry Instance) (session : Session Instance World) : Prop where
  fits : session.Fits registry
  isAnalysis : ∀ id, session.isValid id → registry.isAnalysis id
  fresh : ∀ id, session.isValid id → FreshIn registry session.history id
  traced : session.Traced

theorem Records.traced {before after : Session Instance World} {entries : List JournalEntry}
    (records : before.Records entries after) (traced : before.Traced) :
    after.Traced := by
  obtain ⟨dropped, split⟩ := traced
  refine ⟨dropped, ?_⟩
  rw [records.history, records.trace, List.filterMap_append, ← split, List.append_assoc]

/-- A step that keeps validity and adds only harmless entries keeps everything. -/
private theorem Sound.records {before after : Session Instance World}
    {entries : List JournalEntry} (sound : before.Sound registry)
    (records : before.Records entries after) (sameValidity : after.validity = before.validity)
    (harmless : ∀ id, ∀ later ∈ entries, later.Harmless registry id) :
    after.Sound registry where
  fits := by
    rw [Fits, sameValidity]
    exact sound.fits
  isAnalysis id valid := by
    rw [isValid, sameValidity] at valid
    exact sound.isAnalysis id valid
  fresh id valid := by
    rw [isValid, sameValidity] at valid
    rw [records.history]
    exact (sound.fresh id valid).append (harmless id)
  traced := records.traced sound.traced

private theorem Sound.note {session : Session Instance World} (sound : session.Sound registry)
    {entry : JournalEntry} (silent : entry.event? = none) (quiet : entry.ran? = none)
    (notReset : entry ≠ .reset) :
    (session.note entry).Sound registry := by
  apply sound.records (records_note session silent) rfl
  intro id later member
  rw [List.mem_singleton.1 member]
  exact JournalEntry.harmless_of_quiet quiet notReset id

variable [Pass Instance World]

/-- A completed run makes its own result fresh, if it is an analysis, and what it reaches is not
valid any more. -/
private theorem Executed.sound_of_ok {session : Session Instance World} {id : PassId}
    {attempt : Attempt Instance World Bool} (executed : Executed registry session id attempt)
    (resolved : registry.Resolved) (sound : session.Sound registry) {changed : Bool}
    (succeeded : attempt.1 = .ok changed) :
    attempt.2.Sound registry := by
  obtain ⟨first, last, records, firstMinor, lastMinor⟩ := executed.records_of_ok succeeded
  have validAfter := executed.isValid_of_ok sound.fits succeeded
  have inside := executed.inside_of_ok succeeded
  refine ⟨executed.fits sound.fits, ?_, ?_, records.traced sound.traced⟩
  · intro other valid
    rcases (validAfter other).1 valid with ⟨rfl, isAnalysis⟩ | ⟨_, wasValid, _⟩
    · exact isAnalysis
    · exact sound.isAnalysis other wasValid
  · intro other valid
    rw [records.history]
    rcases (validAfter other).1 valid with ⟨rfl, _⟩ | ⟨distinct, wasValid, spared⟩
    · refine ⟨session.history ++ first, _, last, (List.append_assoc ..).symm, ⟨changed, rfl⟩, ?_⟩
      exact fun later member => (lastMinor later member).harmless other
    · apply (sound.fresh other wasValid).append
      intro later member
      rcases List.mem_append.1 member with isFirst | member
      · exact (firstMinor later isFirst).harmless other
      · rcases List.mem_cons.1 member with rfl | isLast
        · refine ⟨by simp, ?_⟩
          rintro runner runnerInside ⟨_, same⟩
          have sameName : registry.name id = registry.name runner := by
            simp only [JournalEntry.noticed.injEq, Notice.ran.injEq] at same
            exact same.1
          obtain rfl := resolved.name_injective inside runnerInside sameName
          exact ⟨distinct.symm, fun upsets => spared (resolved.mem_stale.2 upsets)⟩
        · exact (lastMinor later isLast).harmless other

theorem Step.sound {before after : Session Instance World} (stepped : Step registry before after)
    (resolved : registry.Resolved) (sound : before.Sound registry) :
    after.Sound registry := by
  cases stepped with
  | demanded pass => exact sound.note rfl rfl (by simp)
  | skipped descriptor =>
      apply sound.records (before.records_skipped descriptor) rfl
      intro id later member
      rw [List.mem_singleton.1 member]
      exact JournalEntry.harmless_of_quiet rfl (by simp) id
  | @cached reused valid =>
      apply sound.records (before.records_cached (registry.name reused)) rfl
      intro id later member
      rw [List.mem_singleton.1 member]
      exact JournalEntry.harmless_of_quiet rfl (by simp) id
  | @executed id attempt executed =>
      cases result : attempt.1 with
      | ok changed => exact executed.sound_of_ok resolved sound result
      | error error =>
          obtain ⟨entries, records, minor⟩ := executed.records_of_error result
          apply sound.records records (executed.validity_of_error result)
          exact fun id later member => (minor later member).harmless id
  | reset =>
      refine ⟨(Step.reset before).fits sound.fits, ?_, ?_, before.records_reset.traced sound.traced⟩
      · exact fun id valid => absurd valid (before.not_isValid_reset id)
      · exact fun id valid => absurd valid (before.not_isValid_reset id)
  | setLevel level =>
      have noted := sound.note (rfl : (JournalEntry.levelSet level).event? = none) rfl (by simp)
      exact ⟨noted.fits, noted.isAnalysis, noted.fresh, noted.traced⟩
  | told silent =>
      exact sound.note silent (JournalEntry.ran?_of_silent silent) (by simp)
  | clearTrace =>
      exact ⟨sound.fits, sound.isAnalysis, sound.fresh, List.nil_suffix⟩

theorem sound_of_steps {before after : Session Instance World}
    (steps : ReflTransGen (Step registry) before after) (resolved : registry.Resolved)
    (sound : before.Sound registry) :
    after.Sound registry :=
  kept_of_steps steps (fun _ _ stepped held => stepped.sound resolved held) sound

omit [Pass Instance World] in
theorem sound_start (registry : Registry Instance) (level : Level) (world : World) :
    (start registry level world).Sound registry := by
  refine ⟨List.length_replicate, ?_, ?_, List.nil_suffix⟩
  · exact fun id valid => absurd valid (not_isValid_start registry level world id)
  · exact fun id valid => absurd valid (not_isValid_start registry level world id)

end Session

end PassScheduler
