import PassScheduler.Proofs.Schedule.Confinement

/-!
Contract: which instance a pass is run by.

Between two changes of the level a pass has one instance. It is made by the maker of the pass when
the pass is first entered, and every later run finds it as the run before has left it, whatever was
reset or failed in between. The worlds on which a pass was entered since the level was last set
therefore say what its instance is, and it was made iff there are any.

Owns:
- deeds, which are journal entries with what a pass was and found where it was entered;
- that all runs of a watched session are entered on the instance that the deeds before tell, and
  that instances are made for these runs alone.

Does not own: which passes run, or what a run does to an instance.
-/

open Relation (ReflTransGen)

namespace PassScheduler

namespace JournalEntry

/-- An entry that has nothing to do with instances. -/
def isAside : JournalEntry → Bool
  | .levelSet _ => false
  | .created _ => false
  | .entered _ => false
  | _ => true

theorem isCalm_of_isAside {entry : JournalEntry} (aside : entry.isAside) : entry.isCalm := by
  cases entry with
  | levelSet => cases aside
  | entered => cases aside
  | _ => rfl

theorem entered?_of_isAside {entry : JournalEntry} (aside : entry.isAside) :
    entry.entered? = none := by
  cases entry with
  | entered => cases aside
  | _ => rfl

end JournalEntry

/-! ## Deeds -/

/-- A journal entry. Where it tells that a run was entered, what was entered and on which world. -/
structure Deed (Instance World : Type) where
  entry : JournalEntry
  found : Option (Instance × World)

section Deeds

variable {Instance World : Type}

/-- The entries of a journal, with what was found at each entry of a run in order. -/
def deeds : List JournalEntry → List (Instance × World) → List (Deed Instance World)
  | [], _ => []
  | .entered context :: entries, found =>
      ⟨.entered context, found.head?⟩ :: deeds entries found.tail
  | entry :: entries, found => ⟨entry, none⟩ :: deeds entries found

theorem map_entry_deeds (entries : List JournalEntry) (found : List (Instance × World)) :
    (deeds entries found).map Deed.entry = entries := by
  induction entries generalizing found with
  | nil => rfl
  | cons entry entries inductionHypothesis =>
      cases entry <;> simp [deeds, inductionHypothesis]

theorem deeds_append {entries : List JournalEntry} {found : List (Instance × World)}
    (matched : (entries.filterMap JournalEntry.entered?).length = found.length)
    (more : List JournalEntry) (later : List (Instance × World)) :
    deeds (entries ++ more) (found ++ later) = deeds entries found ++ deeds more later := by
  induction entries generalizing found with
  | nil =>
      obtain rfl := List.eq_nil_of_length_eq_zero matched.symm
      rfl
  | cons entry entries inductionHypothesis =>
      cases entry with
      | entered context =>
          cases found with
          | nil => simp [JournalEntry.entered?] at matched
          | cons first found =>
              have rest : (entries.filterMap JournalEntry.entered?).length = found.length := by
                simpa [JournalEntry.entered?] using matched
              simp [deeds, inductionHypothesis rest]
      | _ => exact congrArg _ (inductionHypothesis matched)

/-- Nothing that was found is left out. -/
theorem filterMap_found_deeds {entries : List JournalEntry} {found : List (Instance × World)}
    (matched : (entries.filterMap JournalEntry.entered?).length = found.length) :
    (deeds entries found).filterMap Deed.found = found := by
  induction entries generalizing found with
  | nil =>
      obtain rfl := List.eq_nil_of_length_eq_zero matched.symm
      rfl
  | cons entry entries inductionHypothesis =>
      cases entry with
      | entered context =>
          cases found with
          | nil => simp [JournalEntry.entered?] at matched
          | cons first found =>
              have rest : (entries.filterMap JournalEntry.entered?).length = found.length := by
                simpa [JournalEntry.entered?] using matched
              simp [deeds, inductionHypothesis rest]
      | _ => exact inductionHypothesis matched

theorem deeds_of_aside {entries : List JournalEntry} (aside : ∀ entry ∈ entries, entry.isAside)
    (found : List (Instance × World)) :
    deeds entries found = entries.map fun entry => ⟨entry, none⟩ := by
  induction entries with
  | nil => rfl
  | cons entry entries inductionHypothesis =>
      obtain ⟨isAside, others⟩ := List.forall_mem_cons.1 aside
      cases entry with
      | entered => cases isAside
      | _ => exact congrArg _ (inductionHypothesis others)

/-- The worlds on which the pass of a name was entered since the level was set, after one deed. -/
def Deed.worlds (name : String) (worlds : List World) : Deed Instance World → List World
  | ⟨.levelSet _, _⟩ => []
  | ⟨.entered context, some (_, world)⟩ =>
      if context.name = name then worlds ++ [world] else worlds
  | _ => worlds

/-- The worlds on which the pass of a name was entered since the level was last set. -/
def worldsSince (name : String) (deeds : List (Deed Instance World)) : List World :=
  deeds.foldl (Deed.worlds name) []

theorem worldsSince_append (name : String) (before after : List (Deed Instance World)) :
    worldsSince name (before ++ after) = after.foldl (Deed.worlds name) (worldsSince name before) :=
  List.foldl_append

theorem worldsSince_concat (name : String) (before : List (Deed Instance World))
    (last : Deed Instance World) :
    worldsSince name (before ++ [last]) = last.worlds name (worldsSince name before) := by
  rw [worldsSince_append]
  rfl

theorem worldsSince_append_aside (name : String) (before : List (Deed Instance World))
    {entries : List JournalEntry} (aside : ∀ entry ∈ entries, entry.isAside) :
    worldsSince name (before ++ entries.map fun entry => ⟨entry, none⟩) =
      worldsSince name before := by
  induction entries generalizing before with
  | nil => simp
  | cons entry entries inductionHypothesis =>
      obtain ⟨isAside, others⟩ := List.forall_mem_cons.1 aside
      rw [List.map_cons, ← List.singleton_append, ← List.append_assoc, inductionHypothesis _ others,
        worldsSince_concat]
      cases entry with
      | levelSet => cases isAside
      | _ => rfl

/-- What an instance becomes by runs on some worlds, one after the other. -/
def aged [Pass Instance World] (bound : Instance) (worlds : List World) : Instance :=
  worlds.foldl (fun bound world => (Pass.run bound world).2.1) bound

theorem aged_concat [Pass Instance World] (bound : Instance) (worlds : List World) (last : World) :
    aged bound (worlds ++ [last]) = (Pass.run (aged bound worlds) last).2.1 := by
  rw [aged, List.foldl_append]
  rfl

end Deeds

section Laws

variable {Instance World : Type} [Pass Instance World]

/-- A run is entered on the instance of its pass for the active level, as the runs since the level
was set have left it. If there were none, the instance has just been made. -/
def EntersOwn (registry : Registry Instance) (first : Level) (before : List (Deed Instance World))
    (context : Context) (found : Option (Instance × World)) : Prop :=
  ∃ id pass world, registry.pass? id = some pass ∧
    context = ⟨pass.descriptor.name, levelAfter first (before.map Deed.entry)⟩ ∧
    found = some (aged (pass.create context) (worldsSince context.name before), world) ∧
    (worldsSince context.name before = [] → before.getLast? = some ⟨.created context, none⟩)

/-- An instance is made where its pass has not been entered since the level was set, and the pass is
entered at once. -/
def MadeForRun (before : List (Deed Instance World)) (context : Context)
    (after : List (Deed Instance World)) : Prop :=
  worldsSince context.name before = [] ∧
    ∃ visit later, after = ⟨.entered context, some visit⟩ :: later

/-- Every run is entered on the instance of its pass, and instances are made for that alone. -/
structure Faithful (registry : Registry Instance) (first : Level)
    (deeds : List (Deed Instance World)) : Prop where
  entered : ∀ before context found after, deeds = before ++ ⟨.entered context, found⟩ :: after →
    EntersOwn registry first before context found
  created : ∀ before context found after, deeds = before ++ ⟨.created context, found⟩ :: after →
    MadeForRun before context after

namespace Faithful

variable {registry : Registry Instance} {first : Level} {deeds more : List (Deed Instance World)}

theorem append (faithful : Faithful registry first deeds)
    (entered : ∀ before context found after, more = before ++ ⟨.entered context, found⟩ :: after →
      EntersOwn registry first (deeds ++ before) context found)
    (created : ∀ before context found after, more = before ++ ⟨.created context, found⟩ :: after →
      MadeForRun (deeds ++ before) context after) :
    Faithful registry first (deeds ++ more) where
  entered before context found after split := by
    rcases append_eq_append_cons_iff.1 split with ⟨between, isOld, _⟩ | ⟨between, rfl, isNew⟩
    · exact faithful.entered before context found between isOld
    · exact entered between context found after isNew
  created before context found after split := by
    rcases append_eq_append_cons_iff.1 split with ⟨between, isOld, rfl⟩ | ⟨between, rfl, isNew⟩
    · obtain ⟨unmade, visit, later, rfl⟩ := faithful.created before context found between isOld
      exact ⟨unmade, visit, later ++ more, rfl⟩
    · exact created between context found after isNew

theorem append_calm (faithful : Faithful registry first deeds)
    (calm : ∀ deed ∈ more, ∀ context,
      deed.entry ≠ .entered context ∧ deed.entry ≠ .created context) :
    Faithful registry first (deeds ++ more) := by
  refine faithful.append (fun before context found after split => ?_)
    fun before context found after split => ?_
  · exact absurd rfl (calm ⟨.entered context, found⟩ (by simp [split]) context).1
  · exact absurd rfl (calm ⟨.created context, found⟩ (by simp [split]) context).2

/-- The run of a pass that has an instance. -/
theorem append_entered (faithful : Faithful registry first deeds) {context : Context}
    {found : Option (Instance × World)} (own : EntersOwn registry first deeds context found) :
    Faithful registry first (deeds ++ [⟨.entered context, found⟩]) := by
  refine faithful.append (fun before other visit after split => ?_)
    fun before other visit after split => ?_
  · cases before with
    | nil =>
        cases (List.cons.inj split).1
        rwa [List.append_nil]
    | cons => simp at split
  · cases before with
    | nil => cases (List.cons.inj split).1
    | cons => simp at split

/-- The making of an instance and the run of its pass. -/
theorem append_created_entered (faithful : Faithful registry first deeds) {context : Context}
    {visit : Instance × World} (unmade : worldsSince context.name deeds = [])
    (own : EntersOwn registry first (deeds ++ [⟨.created context, none⟩]) context (some visit)) :
    Faithful registry first
      (deeds ++ [⟨.created context, none⟩, ⟨.entered context, some visit⟩]) := by
  refine faithful.append (fun before other found after split => ?_)
    fun before other found after split => ?_
  · rcases before with _ | ⟨made, _ | ⟨entered, before⟩⟩
    · cases (List.cons.inj split).1
    · obtain ⟨rfl, rest⟩ := List.cons.inj split
      cases (List.cons.inj rest).1
      exact own
    · simp at split
  · rcases before with _ | ⟨made, _ | ⟨entered, before⟩⟩
    · obtain ⟨isMade, rfl⟩ := List.cons.inj split
      cases isMade
      rw [List.append_nil]
      exact ⟨unmade, visit, [], rfl⟩
    · obtain ⟨_, rest⟩ := List.cons.inj split
      cases (List.cons.inj rest).1
    · simp at split

omit [Pass Instance World] in
/-- A pass that was entered counts as entered until the level is set. -/
theorem foldl_worlds_ne_nil {name : String} {later : List (Deed Instance World)}
    (unset : ∀ level, .levelSet level ∉ later.map Deed.entry) {worlds : List World}
    (entered : worlds ≠ []) :
    later.foldl (Deed.worlds name) worlds ≠ [] := by
  induction later generalizing worlds with
  | nil => exact entered
  | cons deed later inductionHypothesis =>
      have unsetLater : ∀ level, .levelSet level ∉ later.map Deed.entry :=
        fun level isLater => unset level (List.mem_cons_of_mem _ isLater)
      refine inductionHypothesis unsetLater ?_
      unfold Deed.worlds
      split
      · rename_i level _
        exact absurd List.mem_cons_self (unset level)
      · split
        · simp
        · exact entered
      · exact entered

/-- Between the makings of two instances for one pass, the level is set. -/
theorem levelSet_between (faithful : Faithful registry first deeds)
    {before between after : List (Deed Instance World)} {context again : Context}
    {made remade : Option (Instance × World)}
    (split : deeds = before ++ ⟨.created context, made⟩ ::
      (between ++ ⟨.created again, remade⟩ :: after))
    (sameName : again.name = context.name) :
    ∃ level, .levelSet level ∈ between.map Deed.entry := by
  by_contra unset
  have unset : ∀ level, .levelSet level ∉ between.map Deed.entry := fun level isBetween =>
    unset ⟨level, isBetween⟩
  -- The pass was entered right after the first making, and only a change of level forgets that.
  obtain ⟨_, visit, later, isLater⟩ := faithful.created _ _ _ _ split
  have resplit : deeds = (before ++ ⟨.created context, made⟩ :: between) ++
      ⟨.created again, remade⟩ :: after := by
    simp [split]
  have unmade := (faithful.created _ _ _ _ resplit).1
  cases between with
  | nil => cases (List.cons.inj isLater).1
  | cons entered between =>
      obtain ⟨rfl, _⟩ := List.cons.inj isLater
      obtain ⟨found, world⟩ := visit
      rw [worldsSince_append, sameName] at unmade
      have grown : between.foldl (Deed.worlds context.name)
          (worldsSince context.name before ++ [world]) = [] := by
        simpa [Deed.worlds] using unmade
      have unsetLater : ∀ level, .levelSet level ∉ between.map Deed.entry :=
        fun level isLater => unset level (List.mem_cons_of_mem _ isLater)
      exact foldl_worlds_ne_nil unsetLater (by simp) grown

end Faithful

end Laws

namespace Session

variable {Instance World : Type}

/-- What a session on an observed world has done. -/
def deeds (session : Session Instance (Observed Instance World)) : List (Deed Instance World) :=
  PassScheduler.deeds session.history session.world.entries

variable [Pass Instance World] {registry : Registry Instance} {first : Level}

/-! ## What a session keeps -/

/-- Instances are kept exactly for the passes that were entered since the level was set, and each is
what the runs of its pass have made of it. -/
structure Tended (registry : Registry Instance) (first : Level)
    (session : Session Instance (Observed Instance World)) : Prop where
  matched : (session.history.filterMap JournalEntry.entered?).length =
    session.world.entries.length
  level : session.level = levelAfter first session.history
  slots : session.instances.length = registry.size
  unmade : ∀ id < registry.size, worldsSince (registry.name id) session.deeds = [] →
    session.binding? id = none
  kept : ∀ id pass, registry.pass? id = some pass →
    worldsSince (registry.name id) session.deeds ≠ [] →
      session.binding? id = some ⟨⟨registry.name id, session.level⟩,
        aged (pass.create ⟨registry.name id, session.level⟩)
          (worldsSince (registry.name id) session.deeds)⟩
  faithful : Faithful registry first session.deeds

namespace Tended

variable {session after : Session Instance (Observed Instance World)}

theorem start (registry : Registry Instance) (level : Level) (world : World) :
    (Session.start registry level (Observed.ofWorld world)).Tended registry level where
  matched := rfl
  level := rfl
  slots := List.length_replicate
  unmade id _ _ := binding?_of_none rfl id
  kept _ _ _ entered := absurd rfl entered
  faithful := by
    constructor
    all_goals
      intro before context found rest split
      exact absurd split.symm (by simp [deeds, PassScheduler.deeds, history, Session.start])

/-- What neither runs nor sets the level changes nothing about instances. -/
theorem after_aside {entries : List JournalEntry} (tended : session.Tended registry first)
    (grown : after.history = session.history ++ entries)
    (aside : ∀ entry ∈ entries, entry.isAside) (sameLevel : after.level = session.level)
    (sameInstances : after.instances = session.instances)
    (sameEntries : after.world.entries = session.world.entries) :
    after.Tended registry first := by
  have isDone : after.deeds = session.deeds ++ entries.map fun entry => ⟨entry, none⟩ := by
    have split := deeds_append tended.matched entries []
    rw [List.append_nil, deeds_of_aside aside, ← grown] at split
    rw [deeds, sameEntries]
    exact split
  have noneEntered : entries.filterMap JournalEntry.entered? = [] :=
    List.filterMap_eq_nil_iff.2 fun entry member =>
      JournalEntry.entered?_of_isAside (aside entry member)
  have sameWorlds : ∀ name, worldsSince name after.deeds = worldsSince name session.deeds := by
    intro name
    rw [isDone, worldsSince_append_aside name _ aside]
  have sameBinding : ∀ id, after.binding? id = session.binding? id := by
    intro id
    rw [binding?, sameInstances, binding?]
  refine ⟨?_, ?_, sameInstances ▸ tended.slots, ?_, ?_, ?_⟩
  · rw [grown, List.filterMap_append, noneEntered, List.append_nil, sameEntries]
    exact tended.matched
  · rw [grown, levelAfter_append, sameLevel, ← tended.level]
    exact (levelAfter_of_calm (fun entry member =>
      JournalEntry.isCalm_of_isAside (aside entry member)) _).symm
  · intro id inside noWorlds
    rw [sameBinding]
    rw [sameWorlds] at noWorlds
    exact tended.unmade id inside noWorlds
  · intro id pass found entered
    rw [sameWorlds] at entered ⊢
    rw [sameBinding, sameLevel]
    exact tended.kept id pass found entered
  · rw [isDone]
    refine tended.faithful.append_calm fun deed isDeed context => ?_
    obtain ⟨entry, isEntry, rfl⟩ := List.mem_map.1 isDeed
    have isAside := aside entry isEntry
    constructor
    · rintro rfl
      cases isAside
    · rintro rfl
      cases isAside

theorem after_aside_entry {entry : JournalEntry} (tended : session.Tended registry first)
    (grown : after.history = session.history ++ [entry]) (aside : entry.isAside)
    (sameLevel : after.level = session.level) (sameInstances : after.instances = session.instances)
    (sameEntries : after.world.entries = session.world.entries) :
    after.Tended registry first :=
  tended.after_aside grown (List.forall_mem_singleton.2 aside) sameLevel sameInstances sameEntries

/-- A change of level gives up all instances, and forgets which passes were entered. -/
theorem setLevel (tended : session.Tended registry first) (level : Level) :
    (session.setLevel level).Tended registry first := by
  have grown := (session.records_setLevel level).history
  have isDone : (session.setLevel level).deeds = session.deeds ++ [⟨.levelSet level, none⟩] := by
    have split := deeds_append tended.matched [.levelSet level] []
    rwa [List.append_nil, ← grown] at split
  have noWorlds : ∀ name, worldsSince name (session.setLevel level).deeds = [] := by
    intro name
    rw [isDone, worldsSince_concat]
    rfl
  refine ⟨?_, ?_, ?_, fun id _ _ => binding?_of_none rfl id, ?_, ?_⟩
  · rw [grown, List.filterMap_append]
    exact (congrArg List.length (List.append_nil _)).trans tended.matched
  · rw [grown, levelAfter_append]
    rfl
  · exact List.length_replicate.trans tended.slots
  · exact fun id _ _ entered => absurd (noWorlds _) entered
  · rw [isDone]
    refine tended.faithful.append_calm fun deed isDeed context => ?_
    rw [List.mem_singleton.1 isDeed]
    simp

/-- The instance by which a pass is run, kept or made now. -/
theorem obtain_eq (tended : session.Tended registry first) {id : PassId}
    {pass : ResolvedPass Instance} (found : registry.pass? id = some pass) :
    (session.obtain id pass).1 = ⟨⟨registry.name id, session.level⟩,
      aged (pass.create ⟨registry.name id, session.level⟩)
        (worldsSince (registry.name id) session.deeds)⟩ := by
  unfold Session.obtain
  by_cases entered : worldsSince (registry.name id) session.deeds = []
  · rw [tended.unmade id (Registry.lt_size_of_pass? found) entered, entered,
      Registry.name_of_pass? found]
    rfl
  · rw [tended.kept id pass found entered]

theorem levelAfter_deeds (tended : session.Tended registry first) :
    levelAfter first (session.deeds.map Deed.entry) = session.level := by
  rw [deeds, map_entry_deeds, tended.level]

section Run

variable {id : PassId} {pass : ResolvedPass Instance} {result : Except PassError Bool}

theorem entries_runPass (tended : session.Tended registry first)
    (found : registry.pass? id = some pass) (ran : session.runPass id pass = (result, after)) :
    after.world.entries = session.world.entries ++
      [(aged (pass.create ⟨registry.name id, session.level⟩)
        (worldsSince (registry.name id) session.deeds), session.world.world)] := by
  rw [Observed.entries_of_runPass ran, tended.obtain_eq found]

/-- The run of a pass adds its deed, and before that the making of its instance if the pass was not
entered since the level was set. -/
theorem deeds_runPass (tended : session.Tended registry first)
    (found : registry.pass? id = some pass) (ran : session.runPass id pass = (result, after)) :
    ∃ made, after.history =
        session.history ++ (made ++ [.entered ⟨registry.name id, session.level⟩]) ∧
      after.deeds = session.deeds ++ (made.map (fun entry => ⟨entry, none⟩) ++
        [⟨.entered ⟨registry.name id, session.level⟩,
          some (aged (pass.create ⟨registry.name id, session.level⟩)
            (worldsSince (registry.name id) session.deeds), session.world.world)⟩]) ∧
      (worldsSince (registry.name id) session.deeds = [] ∧
          made = [.created ⟨registry.name id, session.level⟩] ∨
        worldsSince (registry.name id) session.deeds ≠ [] ∧ made = []) := by
  have entries := tended.entries_runPass found ran
  have split := fun more => deeds_append tended.matched more
    [(aged (pass.create ⟨registry.name id, session.level⟩)
      (worldsSince (registry.name id) session.deeds), session.world.world)]
  by_cases entered : worldsSince (registry.name id) session.deeds = []
  · have unmade := tended.unmade id (Registry.lt_size_of_pass? found) entered
    have recorded := records_runPass_of_unmade ran unmade
    rw [← Registry.name_of_pass? found] at recorded
    refine ⟨[.created ⟨registry.name id, session.level⟩], recorded.history, ?_,
      .inl ⟨entered, rfl⟩⟩
    rw [deeds, recorded.history, entries, split]
    rfl
  · have recorded := records_runPass_of_kept ran (tended.kept id pass found entered)
    refine ⟨[], recorded.history, ?_, .inr ⟨entered, rfl⟩⟩
    rw [deeds, recorded.history, entries, split]
    rfl

theorem faithful_runPass (tended : session.Tended registry first)
    (found : registry.pass? id = some pass) (ran : session.runPass id pass = (result, after)) :
    Faithful registry first after.deeds := by
  obtain ⟨made, _, isDone, firstRun⟩ := tended.deeds_runPass found ran
  have active := tended.levelAfter_deeds
  rw [isDone]
  rcases firstRun with ⟨unmade, rfl⟩ | ⟨entered, rfl⟩
  · refine tended.faithful.append_created_entered unmade
      ⟨id, pass, session.world.world, found, ?_, ?_, ?_⟩
    · rw [List.map_append, levelAfter_append, active, Registry.name_of_pass? found]
      rfl
    · rw [worldsSince_concat]
      rfl
    · simp
  · refine tended.faithful.append_entered ⟨id, pass, _, found, ?_, rfl, ?_⟩
    · rw [active, Registry.name_of_pass? found]
    · exact fun notEntered => absurd notEntered entered

theorem runPass (tended : session.Tended registry first) (resolved : registry.Resolved)
    (found : registry.pass? id = some pass) (ran : session.runPass id pass = (result, after)) :
    after.Tended registry first := by
  obtain ⟨made, grown, isDone, firstRun⟩ := tended.deeds_runPass found ran
  have inside := Registry.lt_size_of_pass? found
  have sameLevel : after.level = session.level := (runPass_frame ran).1
  have binding := binding?_runPass ran
  have worlds : ∀ name, worldsSince name after.deeds =
      if registry.name id = name then worldsSince name session.deeds ++ [session.world.world]
      else worldsSince name session.deeds := by
    intro name
    rcases firstRun with ⟨_, rfl⟩ | ⟨_, rfl⟩
    all_goals
      rw [isDone, worldsSince_append]
      rfl
  refine ⟨?_, ?_, (length_instances_runPass ran).trans tended.slots, ?_, ?_,
    tended.faithful_runPass found ran⟩
  · rw [grown, List.filterMap_append, List.length_append, tended.entries_runPass found ran,
      List.length_append, tended.matched]
    rcases firstRun with ⟨_, rfl⟩ | ⟨_, rfl⟩ <;> rfl
  · rw [grown, levelAfter_append, sameLevel, ← tended.level]
    rcases firstRun with ⟨_, rfl⟩ | ⟨_, rfl⟩ <;> rfl
  · intro other otherInside noWorlds
    rw [worlds] at noWorlds
    split at noWorlds
    · simp at noWorlds
    · rename_i otherName
      have distinct : id ≠ other := fun same => otherName (congrArg registry.name same)
      rw [binding, if_neg fun both => distinct both.1]
      exact tended.unmade other otherInside noWorlds
  · intro other otherPass isOther entered
    by_cases same : id = other
    · subst same
      cases found.symm.trans isOther
      rw [binding, if_pos ⟨rfl, tended.slots ▸ inside⟩, tended.obtain_eq found, worlds, if_pos rfl,
        sameLevel, aged_concat]
      rfl
    · have otherInside := Registry.lt_size_of_pass? isOther
      have otherName : registry.name id ≠ registry.name other :=
        fun sameName => same (resolved.name_injective inside otherInside sameName)
      rw [worlds, if_neg otherName] at entered ⊢
      rw [binding, if_neg fun both => same both.1, sameLevel]
      exact tended.kept other otherPass isOther entered

end Run

end Tended

/-! ## Steps -/

variable {session after : Session Instance (Observed Instance World)}

theorem Executed.tended {id : PassId} {attempt : Attempt Instance (Observed Instance World) Bool}
    (executed : Executed registry session id attempt) (resolved : registry.Resolved)
    (tended : session.Tended registry first) :
    attempt.2.Tended registry first := by
  cases executed with
  | unknown => exact tended
  | stale => exact tended
  | failed found _ ran => exact tended.runPass resolved found ran
  | @ran pass changed after found _ ran =>
      have entered := tended.runPass resolved found ran
      have told : (after.recordRan pass.descriptor.name changed).Tended registry first :=
        entered.after_aside_entry (after.records_ran _ changed).history rfl rfl rfl rfl
      obtain ⟨entries, recorded, each⟩ :=
        (after.recordRan pass.descriptor.name changed).records_foldl_invalidate registry
          (registry.stale id)
      obtain ⟨sameLevel, sameInstances, sameWorld⟩ := conclude_frame registry
        (after.recordRan pass.descriptor.name changed) id pass.descriptor.kind
      refine told.after_aside recorded.history (fun entry member => ?_) sameLevel sameInstances
        (congrArg Observed.entries sameWorld)
      obtain ⟨stale, rfl⟩ := each entry member
      rfl

theorem Step.tended (stepped : Step registry session after) (resolved : registry.Resolved)
    (tended : session.Tended registry first) :
    after.Tended registry first := by
  cases stepped with
  | demanded pass =>
      exact tended.after_aside_entry (session.records_demanded pass).history rfl rfl rfl rfl
  | skipped descriptor =>
      exact tended.after_aside_entry (session.records_skipped descriptor).history rfl rfl rfl rfl
  | cached _ => exact tended.after_aside_entry (session.records_cached _).history rfl rfl rfl rfl
  | executed executed => exact executed.tended resolved tended
  | reset => exact tended.after_aside_entry session.records_reset.history rfl rfl rfl rfl
  | setLevel level => exact tended.setLevel level
  | told silent =>
      exact tended.after_aside_entry (session.records_told silent).history rfl rfl rfl rfl
  | clearTrace => exact tended.after_aside (List.append_nil _).symm (by simp) rfl rfl rfl

/-! ## Operations -/

/-- What a session becomes when requests are met one after the other, each on the world that it is
handed. -/
def operated {Instance World : Type} [Pass Instance World] (registry : Registry Instance)
    (session : Session Instance World) (operations : List (World × Request)) :
    Session Instance World :=
  operations.foldl
    (fun session operation => ((session.handed operation.1).perform registry operation.2).2) session

/-- The same on an observed world, which remembers what was found on earlier worlds. -/
def watched (registry : Registry Instance) (session : Session Instance (Observed Instance World))
    (operations : List (World × Request)) : Session Instance (Observed Instance World) :=
  operations.foldl
    (fun session operation =>
      ((session.handed ⟨operation.1, session.world.entries⟩).perform registry operation.2).2)
    session

/-- To watch a session changes nothing about it. -/
theorem viewed_watched (session : Session Instance (Observed Instance World))
    (operations : List (World × Request)) :
    (watched registry session operations).viewed Observed.world =
      operated registry (session.viewed Observed.world) operations := by
  induction operations generalizing session with
  | nil => rfl
  | cons operation operations inductionHypothesis =>
      refine (inductionHypothesis _).trans (congrArg (operated registry · operations) ?_)
      exact congrArg Prod.snd (perform_viewed Observed.isView
        (session.handed ⟨operation.1, session.world.entries⟩) operation.2).symm

theorem Tended.watched (tended : session.Tended registry first) (resolved : registry.Resolved)
    (operations : List (World × Request)) :
    (watched registry session operations).Tended registry first := by
  induction operations generalizing session with
  | nil => exact tended
  | cons operation operations inductionHypothesis =>
      have handed : (session.handed ⟨operation.1, session.world.entries⟩).Tended registry first :=
        tended.after_aside (List.append_nil _).symm (by simp) rfl rfl rfl
      have follows : Follows registry (session.handed ⟨operation.1, session.world.entries⟩) _ :=
        follows_perform _ operation.2
      exact inductionHypothesis (kept_of_steps (steps_of_moves follows.moves)
        (fun _ _ stepped held => stepped.tended resolved held) handed)

/-- However a session is operated, each run is entered on the instance that the maker of its pass
made for the name of the pass and the active level, as the earlier runs since the level was set have
left it. An instance is made where a pass is entered for the first time since then, and for no pass
twice without a change of level in between. -/
theorem watched_faithful (accepted : registry.Accepted) (first : Level) (world : World)
    (operations : List (World × Request)) :
    let session := watched registry (.start registry first (.ofWorld world)) operations
    session.viewed Observed.world = operated registry (.start registry first world) operations ∧
      session.deeds.map Deed.entry = session.history ∧
      session.deeds.filterMap Deed.found = session.world.entries ∧
      Faithful registry first session.deeds ∧
      ∀ before context made between again remade after,
        session.deeds = before ++ ⟨.created context, made⟩ ::
          (between ++ ⟨.created again, remade⟩ :: after) →
        again.name = context.name → ∃ level, .levelSet level ∈ between.map Deed.entry := by
  intro session
  have tended : session.Tended registry first :=
    (Tended.start registry first world).watched accepted.resolved operations
  exact ⟨viewed_watched _ operations, map_entry_deeds _ _, filterMap_found_deeds tended.matched,
    tended.faithful, fun _ _ _ _ _ _ _ split sameName =>
      tended.faithful.levelSet_between split sameName⟩

end Session

namespace Candle

/-- An analysis that can be run as often as its level says. -/
def lamp : List (ResolvedPass Candle) :=
  [⟨⟨Descriptor.analysis "lamp", fun context => ⟨context.level.toNat⟩⟩, [], []⟩]

theorem accepted_lamp : (Registry.ofPasses lamp).Accepted := by
  have registered : (Registrations.mk (lamp.map ResolvedPass.toRegistration)).Registered :=
    Registrations.Registered.empty.add lamp[0].toRegistration rfl
  have faultless : (Registry.ofPasses lamp).fault? = none := by cbv
  exact ⟨_, registered, Registry.build_of_resolved rfl faultless⟩

/-- The lamp is lit at level 1, fails twice after a reset, and is lit again at level 2. -/
def lit : Session Candle (Observed Candle Unit) :=
  Session.watched (.ofPasses lamp) (.start (.ofPasses lamp) 1 (.ofWorld ()))
    [((), .demand 0), ((), .reset), ((), .demand 0), ((), .demand 0), ((), .setLevel 2),
      ((), .demand 0)]

/-- A reset and a failure leave the pass with its instance, and the new level gives it another. -/
theorem watched_faithful_lit :
    (Registry.ofPasses lamp).Accepted ∧ Faithful (.ofPasses lamp) 1 lit.deeds ∧
      lit.deeds.filterMap Deed.found = [(⟨1⟩, ()), (⟨0⟩, ()), (⟨0⟩, ()), (⟨2⟩, ())] ∧
      (lit.history.filter fun entry => !entry.isAside) =
        [.created ⟨"lamp", 1⟩, .entered ⟨"lamp", 1⟩, .entered ⟨"lamp", 1⟩, .entered ⟨"lamp", 1⟩,
          .levelSet 2, .created ⟨"lamp", 2⟩, .entered ⟨"lamp", 2⟩] := by
  obtain ⟨_, _, found, faithful, _⟩ := Session.watched_faithful accepted_lamp 1 ()
    [((), .demand 0), ((), .reset), ((), .demand 0), ((), .demand 0), ((), .setLevel 2),
      ((), .demand 0)]
  have entries : lit.world.entries = [(⟨1⟩, ()), (⟨0⟩, ()), (⟨0⟩, ()), (⟨2⟩, ())] := by cbv
  exact ⟨accepted_lamp, faithful, found.trans entries, by cbv⟩

end Candle

end PassScheduler
