import PassScheduler.Proofs.Schedule.Execution

/-!
Contract: what the journal tells of the run of a single pass.

Owns:
- the instance that is kept for a pass after a run;
- the entries of a run, which has an instance made first if none is kept for the level, and the
  entries of what follows a completed run.

Does not own: which passes run.
-/

namespace PassScheduler

namespace JournalEntry

/-- What the maker of the instance was told whose run an entry tells of. -/
def entered? : JournalEntry → Option Context
  | .entered context => some context
  | _ => none

end JournalEntry

namespace Session

variable {Instance World : Type}

/-- To obtain the instance of a pass does not touch those of other passes. -/
theorem obtain_instances (session : Session Instance World) (id : PassId)
    (pass : ResolvedPass Instance) (other : PassId) :
    (session.obtain id pass).2.instances.length = session.instances.length ∧
      (¬ (id = other ∧ id < session.instances.length) →
        (session.obtain id pass).2.binding? other = session.binding? other) := by
  unfold obtain
  cases session.binding? id with
  | some binding => exact ⟨rfl, fun _ => rfl⟩
  | none =>
      refine ⟨List.length_set, fun elsewhere => ?_⟩
      exact (binding?_keep _ id other _).trans (if_neg elsewhere)

variable [Pass Instance World]

section Run

variable {session after : Session Instance World} {id : PassId} {pass : ResolvedPass Instance}
variable {result : Except PassError Bool}

/-- The instance is kept as the run left it. -/
theorem binding?_runPass (ran : session.runPass id pass = (result, after)) (other : PassId) :
    after.binding? other =
      if id = other ∧ id < session.instances.length then
        some ⟨(session.obtain id pass).1.context,
          (Pass.run (session.obtain id pass).1.bound session.world).2.1⟩
      else session.binding? other := by
  obtain ⟨length, elsewhere⟩ := session.obtain_instances id pass other
  have entered : after = (session.runPass id pass).2 := by rw [ran]
  rw [entered, ← length, ← (session.obtain_frame id pass).2.2]
  refine (binding?_keep _ id other _).trans ?_
  by_cases own : id = other ∧ id < (session.obtain id pass).2.instances.length
  · rw [if_pos own]
    exact if_pos own
  · rw [if_neg own, ← elsewhere (length ▸ own)]
    exact if_neg own

theorem length_instances_runPass (ran : session.runPass id pass = (result, after)) :
    after.instances.length = session.instances.length := by
  have entered : after = (session.runPass id pass).2 := by rw [ran]
  rw [entered, ← (session.obtain_instances id pass id).1]
  exact List.length_set

theorem records_runPass_of_kept (ran : session.runPass id pass = (result, after))
    {binding : Binding Instance} (kept : session.binding? id = some binding) :
    session.Records [.entered binding.context] after := by
  have noted := session.records_note (rfl : (JournalEntry.entered binding.context).event? = none)
  have entered : after = (session.runPass id pass).2 := by rw [ran]
  rw [entered]
  unfold runPass obtain
  rw [kept]
  exact ⟨noted.history, noted.trace⟩

theorem records_runPass_of_unmade (ran : session.runPass id pass = (result, after))
    (unmade : session.binding? id = none) :
    session.Records [.created ⟨pass.descriptor.name, session.level⟩,
      .entered ⟨pass.descriptor.name, session.level⟩] after := by
  let context : Context := ⟨pass.descriptor.name, session.level⟩
  have made := session.records_note (rfl : (JournalEntry.created context).event? = none)
  have noted := (session.note (.created context)).records_note
    (rfl : (JournalEntry.entered context).event? = none)
  have both := made.trans noted
  have entered : after = (session.runPass id pass).2 := by rw [ran]
  rw [entered]
  unfold runPass obtain
  rw [unmade]
  exact ⟨both.history, both.trace⟩

/-- The journal tells of one entry, and of no run as completed. -/
theorem exists_records_runPass (ran : session.runPass id pass = (result, after)) :
    ∃ entries, session.Records entries after ∧
      entries.filterMap JournalEntry.entered? = [(session.obtain id pass).1.context] ∧
      entries.filterMap JournalEntry.ran? = [] := by
  unfold obtain
  cases kept : session.binding? id with
  | some binding => exact ⟨_, records_runPass_of_kept ran kept, rfl, rfl⟩
  | none => exact ⟨_, records_runPass_of_unmade ran kept, rfl, rfl⟩

end Run

omit [Pass Instance World] in
/-- A completed run is told of after its entry, and what it makes stale after that. -/
theorem exists_records_conclude {session after : Session Instance World}
    {entries : List JournalEntry} (entered : session.Records entries after)
    (registry : Registry Instance) (id : PassId) (name : String) (changed : Bool)
    (kind : PassKind) :
    ∃ last,
      session.Records (entries ++ .noticed (.ran name changed) :: last)
        ((after.recordRan name changed).conclude registry id kind) ∧
      ∀ entry ∈ last, ∃ pass, entry = .noticed (.invalidated pass) := by
  obtain ⟨last, recorded, each⟩ :=
    (after.recordRan name changed).records_foldl_invalidate registry (registry.stale id)
  have told := entered.trans ((after.records_ran name changed).trans recorded)
  exact ⟨last, ⟨told.history, told.trace⟩, each⟩

end Session

end PassScheduler
