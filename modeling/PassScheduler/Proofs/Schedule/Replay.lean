import Mathlib.Data.List.DropRight
import PassScheduler.Proofs.Registry.Standard
import PassScheduler.Proofs.Schedule.Recording

/-!
Contract: the events since the last reset determine the state of every pass.

Replayed from all passes unscheduled, a run makes an analysis valid and a transformation transient,
an invalidation takes validity away, and the other events change nothing.

Owns:
- the replay of events, and the states after a history, which replays the events since its last
  reset;
- what has to hold of the states for an event to be permitted;
- that the replay yields the states that a session keeps, and that every event of every session is
  permitted where it stands.

Does not own: which events a request records.
-/

open Relation (ReflTransGen)

namespace PassScheduler

/-- What an event makes of the state of the pass that it is about. -/
def Action.next (isAnalysis : Bool) (state : PassState) : Action → PassState
  | .ran _ => if isAnalysis then .valid else .ranTransient
  | .invalidated => .invalidated
  | .cached => state
  | .skipped => state

namespace Registry

variable {Instance : Type}

/-- What an event makes of the states of all passes. -/
def replayEvent (registry : Registry Instance) (states : PassId → PassState) (event : Event) :
    PassId → PassState :=
  match registry.id? event.pass with
  | none => states
  | some id =>
      Function.update states id (event.action.next (registry.isAnalysis id) (states id))

/-- The states after some events, before which every pass was unscheduled. -/
def replay (registry : Registry Instance) (events : List Event) : PassId → PassState :=
  events.foldl registry.replayEvent fun _ => .unscheduled

/-- What an event says of the state in which it finds its pass. An analysis runs only if it is not
valid, and only what is valid is used again or invalidated. -/
def Permits (registry : Registry Instance) (states : PassId → PassState) (event : Event) : Prop :=
  ∃ id, registry.id? event.pass = some id ∧
    match event.action with
    | .ran _ => registry.isAnalysis id → states id ≠ .valid
    | .cached => states id = .valid
    | .invalidated => states id = .valid
    | .skipped => True

/-- The number of a pass is found by its name. -/
theorem Accepted.id?_name {registry : Registry Instance} (accepted : registry.Accepted)
    {id : PassId} (inside : id < registry.size) :
    registry.id? (registry.name id) = some id := by
  have named : ∀ other (isInside : other < registry.passes.length),
      registry.passes[other].descriptor.name = registry.name other := by
    intro other isInside
    exact (name_of_pass? (List.getElem?_eq_getElem isInside)).symm
  refine List.findIdx?_eq_some_iff_getElem.2 ⟨inside, by simp [named id inside], ?_⟩
  intro other before
  have isInside : other < registry.size := before.trans inside
  rw [decide_eq_true_eq]
  intro sameName
  have same : other = id :=
    accepted.resolved.name_injective isInside inside ((named other isInside).symm.trans sameName)
  omega

section ReplayEvent

variable {registry : Registry Instance} {states : PassId → PassState} {id : PassId}

theorem replayEvent_of_id? {event : Event} (isId : registry.id? event.pass = some id) :
    registry.replayEvent states event =
      Function.update states id (event.action.next (registry.isAnalysis id) (states id)) := by
  simp only [replayEvent, isId]

/-- An event that changes nothing about its pass changes nothing at all. -/
theorem replayEvent_eq_self {event : Event}
    (same : ∀ isAnalysis state, event.action.next isAnalysis state = state) :
    registry.replayEvent states event = states := by
  unfold replayEvent
  cases registry.id? event.pass with
  | none => rfl
  | some id => simp only [same, Function.update_eq_self]

/-- A permitted event leaves every transformation neither valid nor invalidated. -/
theorem Permits.transient {event : Event} (permits : registry.Permits states event)
    (transient : ∀ id, ¬ registry.isAnalysis id → states id ≠ .valid ∧ states id ≠ .invalidated)
    {other : PassId} (isTransformation : ¬ registry.isAnalysis other) :
    registry.replayEvent states event other ≠ .valid ∧
      registry.replayEvent states event other ≠ .invalidated := by
  obtain ⟨id, isId, allowed⟩ := permits
  have before := transient other isTransformation
  rw [replayEvent_of_id? isId]
  by_cases same : other = id
  · subst same
    rw [Function.update_self]
    cases action : event.action with
    | ran changed => simp [Action.next, isTransformation]
    | invalidated =>
        rw [action] at allowed
        exact absurd allowed before.1
    | cached => exact before
    | skipped => exact before
  · rw [Function.update_of_ne same]
    exact before

end ReplayEvent

end Registry

namespace Session

variable {Instance World : Type}

/-! ## The states after a history -/

section History

variable (registry : Registry Instance)

/-- The states that the events since the last reset of a history lead to. -/
def statesAfter (history : List JournalEntry) : PassId → PassState :=
  registry.replay ((history.rtakeWhile (· ≠ .reset)).filterMap JournalEntry.event?)

/-- Every event of a history is permitted by the states after the entries before it. -/
def Permitted (history : List JournalEntry) : Prop :=
  ∀ before entry event, before ++ [entry] <+: history → entry.event? = some event →
    registry.Permits (statesAfter registry before) event

theorem statesAfter_reset (history : List JournalEntry) (id : PassId) :
    statesAfter registry (history ++ [.reset]) id = .unscheduled := by
  rw [statesAfter, List.rtakeWhile_concat_neg _ _ _ (by simp)]
  rfl

theorem statesAfter_event (history : List JournalEntry) {entry : JournalEntry} {event : Event}
    (tells : entry.event? = some event) :
    statesAfter registry (history ++ [entry]) =
      registry.replayEvent (statesAfter registry history) event := by
  have notReset : entry ≠ .reset := by
    rintro rfl
    cases tells
  rw [statesAfter, List.rtakeWhile_concat_pos _ _ _ (by simp [notReset]), List.filterMap_append,
    Registry.replay, List.foldl_append]
  simp only [List.filterMap_cons, tells, List.filterMap_nil, List.foldl_cons, List.foldl_nil]
  rfl

/-- An event that names a pass is about the state of that pass. -/
theorem statesAfter_of_name (history : List JournalEntry) {entry : JournalEntry} {name : String}
    {action : Action} {id : PassId} (tells : entry.event? = some ⟨name, action⟩)
    (isId : registry.id? name = some id) :
    statesAfter registry (history ++ [entry]) =
      Function.update (statesAfter registry history) id
        (action.next (registry.isAnalysis id) (statesAfter registry history id)) := by
  rw [statesAfter_event registry history tells]
  exact Registry.replayEvent_of_id? isId

theorem statesAfter_silent (history : List JournalEntry) {entry : JournalEntry}
    (silent : entry.event? = none) (notReset : entry ≠ .reset) :
    statesAfter registry (history ++ [entry]) = statesAfter registry history := by
  rw [statesAfter, List.rtakeWhile_concat_pos _ _ _ (by simp [notReset]), List.filterMap_append]
  simp only [List.filterMap_cons, silent, List.filterMap_nil, List.append_nil]
  rfl

theorem statesAfter_append_silent (history : List JournalEntry) {entries : List JournalEntry}
    (silent : ∀ entry ∈ entries, entry.event? = none ∧ entry ≠ .reset) :
    statesAfter registry (history ++ entries) = statesAfter registry history := by
  induction entries generalizing history with
  | nil => rw [List.append_nil]
  | cons entry entries inductionHypothesis =>
      obtain ⟨tellsNothing, notReset⟩ := silent entry List.mem_cons_self
      have later := inductionHypothesis (history ++ [entry])
        fun other member => silent other (List.mem_cons_of_mem _ member)
      rw [List.append_cons, later, statesAfter_silent registry history tellsNothing notReset]

variable {registry}

theorem Permitted.concat {history : List JournalEntry} (permitted : Permitted registry history)
    {entry : JournalEntry}
    (permits : ∀ event, entry.event? = some event →
      registry.Permits (statesAfter registry history) event) :
    Permitted registry (history ++ [entry]) := by
  intro before last event isPrefix tells
  rcases List.prefix_concat_iff.1 isPrefix with isWhole | isOld
  · obtain ⟨rfl, isLast⟩ := List.append_inj' isWhole rfl
    rw [List.cons.inj isLast |>.1] at tells
    exact permits event tells
  · exact permitted before last event isOld tells

theorem Permitted.append_silent {history entries : List JournalEntry}
    (permitted : Permitted registry history) (silent : ∀ entry ∈ entries, entry.event? = none) :
    Permitted registry (history ++ entries) := by
  induction entries generalizing history with
  | nil => simpa using permitted
  | cons entry entries inductionHypothesis =>
      rw [List.append_cons]
      refine inductionHypothesis (permitted.concat ?_)
        fun other member => silent other (List.mem_cons_of_mem _ member)
      intro event tells
      rw [silent entry List.mem_cons_self] at tells
      cases tells

/-- Transformations are never valid, and so are never invalidated. -/
theorem Permitted.transient {history : List JournalEntry} (permitted : Permitted registry history)
    {id : PassId} (isTransformation : ¬ registry.isAnalysis id) :
    statesAfter registry history id ≠ .valid ∧ statesAfter registry history id ≠ .invalidated := by
  induction history using List.reverseRecOn generalizing id with
  | nil => simp [statesAfter, Registry.replay]
  | append_singleton history entry inductionHypothesis =>
      have earlier : Permitted registry history :=
        fun before last event isPrefix => permitted before last event
          (isPrefix.trans (List.prefix_append _ _))
      cases tells : entry.event? with
      | some event =>
          have permits := permitted history entry event (List.prefix_refl _) tells
          rw [statesAfter_event registry history tells]
          exact permits.transient (fun _ => inductionHypothesis earlier) isTransformation
      | none =>
          by_cases isReset : entry = .reset
          · rw [isReset, statesAfter_reset]
            simp
          · rw [statesAfter_silent registry history tells isReset]
            exact inductionHypothesis earlier isTransformation

end History

/-! ## Sessions -/

/-- The events of a session are permitted, and lead to the states that the session keeps. -/
structure Replayed (registry : Registry Instance) (session : Session Instance World) : Prop where
  states : ∀ id, session.validity.state id = statesAfter registry session.history id
  permitted : Permitted registry session.history

variable {registry : Registry Instance}

theorem replayed_start (registry : Registry Instance) (level : Level) (world : World) :
    (start registry level world).Replayed registry where
  states id := ValiditySet.state_fresh registry.size id
  permitted := by
    intro before entry event isPrefix
    have isEmpty := List.prefix_nil.1 isPrefix
    simp at isEmpty

/-- What neither records an event nor resets leaves the replay as it is. -/
theorem Replayed.silent {before after : Session Instance World} {entries : List JournalEntry}
    (replayed : before.Replayed registry) (records : before.Records entries after)
    (sameValidity : after.validity = before.validity)
    (silent : ∀ entry ∈ entries, entry.event? = none ∧ entry ≠ .reset) :
    after.Replayed registry where
  states id := by
    rw [sameValidity, records.history, statesAfter_append_silent registry _ silent]
    exact replayed.states id
  permitted := by
    rw [records.history]
    exact replayed.permitted.append_silent fun entry member => (silent entry member).1

/-- A permitted event that changes nothing leaves the replay as it is. -/
theorem Replayed.unchanged {before after : Session Instance World} {entry : JournalEntry}
    {event : Event} (replayed : before.Replayed registry) (records : before.Records [entry] after)
    (sameValidity : after.validity = before.validity) (tells : entry.event? = some event)
    (permits : registry.Permits (statesAfter registry before.history) event)
    (same : ∀ isAnalysis state, event.action.next isAnalysis state = state) :
    after.Replayed registry where
  states id := by
    rw [sameValidity, records.history, statesAfter_event registry _ tells,
      Registry.replayEvent_eq_self same]
    exact replayed.states id
  permitted := by
    rw [records.history]
    refine replayed.permitted.concat fun other tellsOther => ?_
    rw [tells] at tellsOther
    cases tellsOther
    exact permits

theorem Replayed.reset {session : Session Instance World} (replayed : session.Replayed registry) :
    session.reset.Replayed registry where
  states id := by
    rw [session.records_reset.history, statesAfter_reset]
    exact ValiditySet.state_reset session.validity id
  permitted := by
    rw [session.records_reset.history]
    exact replayed.permitted.append_silent (by simp [JournalEntry.event?])

/-! ## The run of a pass -/

/-- A session in which a pass has just run and told of it. Its invalidations are under way and its
own state is not yet kept, so the replay is ahead by that state. -/
structure Concluding (registry : Registry Instance) (id : PassId)
    (session : Session Instance World) : Prop where
  fits : session.Fits registry
  invalid : ¬ session.isValid id
  others : ∀ other, other ≠ id →
    session.validity.state other = statesAfter registry session.history other
  own : statesAfter registry session.history id =
    if registry.isAnalysis id then .valid else .ranTransient
  permitted : Permitted registry session.history

theorem history_invalidate {session : Session Instance World} {target : PassId}
    (valid : session.isValid target) :
    (session.invalidate registry target).history =
      session.history ++ [.noticed (.invalidated (registry.name target))] := by
  unfold Session.invalidate
  rw [if_pos valid]
  simp [history, notice, note, record]

namespace Concluding

variable {session : Session Instance World} {id : PassId}

/-- A valid pass is told of and made invalid, and this is another pass than the one that ran. -/
theorem invalidate_valid (concluding : session.Concluding registry id)
    (accepted : registry.Accepted) {target : PassId} (valid : session.isValid target) :
    (session.invalidate registry target).Concluding registry id := by
  have distinct : target ≠ id := by
    rintro rfl
    exact concluding.invalid valid
  have inside : target < registry.size := concluding.fits ▸ ValiditySet.lt_of_isValid valid
  have isTarget : registry.id? (registry.name target) = some target := accepted.id?_name inside
  have validity := invalidate_validity registry session target
  have history : (session.invalidate registry target).history = _ := history_invalidate valid
  have tells : (JournalEntry.noticed (.invalidated (registry.name target))).event? =
      some ⟨registry.name target, .invalidated⟩ := rfl
  have states : statesAfter registry (session.invalidate registry target).history =
      Function.update (statesAfter registry session.history) target .invalidated := by
    rw [history, statesAfter_of_name registry _ tells isTarget]
    rfl
  refine ⟨?_, ?_, ?_, ?_, ?_⟩
  · rw [Fits, validity, ValiditySet.length_invalidate]
    exact concluding.fits
  · rw [isValid, ValiditySet.isValid_iff, validity, ValiditySet.state_invalidate,
      if_neg (fun both => distinct both.1), ← ValiditySet.isValid_iff]
    exact concluding.invalid
  · intro other isOther
    rw [validity, ValiditySet.state_invalidate, states]
    by_cases same : target = other
    · subst same
      have isValid : session.validity.isValid target := valid
      rw [if_pos ⟨rfl, isValid⟩, Function.update_self]
    · rw [if_neg (fun both => same both.1), Function.update_of_ne (Ne.symm same)]
      exact concluding.others other isOther
  · rw [states, Function.update_of_ne distinct.symm]
    exact concluding.own
  · rw [history]
    refine concluding.permitted.concat fun event tellsEvent => ?_
    cases tellsEvent
    refine ⟨target, isTarget, ?_⟩
    show statesAfter registry session.history target = .valid
    rw [← concluding.others target distinct]
    exact (ValiditySet.isValid_iff _ _).1 valid

theorem invalidate (concluding : session.Concluding registry id) (accepted : registry.Accepted)
    (target : PassId) :
    (session.invalidate registry target).Concluding registry id := by
  by_cases valid : session.isValid target
  · exact concluding.invalidate_valid accepted valid
  · have same : session.invalidate registry target = session := by
      unfold Session.invalidate
      rw [if_neg valid]
    rw [same]
    exact concluding

theorem foldl_invalidate (concluding : session.Concluding registry id)
    (accepted : registry.Accepted) (targets : List PassId) :
    (targets.foldl (Session.invalidate registry) session).Concluding registry id := by
  induction targets generalizing session with
  | nil => exact concluding
  | cons target targets inductionHypothesis =>
      exact inductionHypothesis (concluding.invalidate accepted target)

/-- Once the run of the pass is kept, the replay is not ahead any more. -/
theorem conclude (concluding : session.Concluding registry id) (accepted : registry.Accepted)
    (inside : id < registry.size) {kind : PassKind}
    (isKind : registry.isAnalysis id ↔ kind = .analysis) :
    (session.conclude registry id kind).Replayed registry := by
  have last := concluding.foldl_invalidate accepted (registry.stale id)
  let invalidated := (registry.stale id).foldl (Session.invalidate registry) session
  refine ⟨fun other => ?_, last.permitted⟩
  show (invalidated.validity.recordRun id kind).state other =
    statesAfter registry invalidated.history other
  rw [ValiditySet.state_recordRun]
  by_cases same : id = other
  · subst same
    have inTable : id < invalidated.validity.states.length := by
      rw [last.fits]
      exact inside
    rw [if_pos ⟨rfl, inTable⟩, last.own]
    cases kind <;> simp_all [PassState.afterRun]
  · rw [if_neg (fun both => same both.1)]
    exact last.others other (Ne.symm same)

end Concluding

variable [Pass Instance World]

/-- A pass runs without a word; only then it is told what came of that. -/
private theorem Replayed.runPass {session after : Session Instance World} {id : PassId}
    {pass : ResolvedPass Instance} {result : Except PassError Bool}
    (replayed : session.Replayed registry) (ran : session.runPass id pass = (result, after)) :
    after.Replayed registry := by
  obtain ⟨entries, records, minor⟩ := records_runPass ran
  have traceless : entries.filterMap JournalEntry.event? = [] := by
    have recorded := records.trace
    rw [runPass_trace ran] at recorded
    exact List.append_right_eq_self.1 recorded.symm
  refine replayed.silent records (runPass_frame ran).2 fun entry member => ?_
  exact ⟨List.filterMap_eq_nil_iff.1 traceless entry member, (minor entry member).ne_reset⟩

/-- Between its run and the invalidations that it causes, a pass has been told of but is not
kept. -/
private theorem Replayed.concluding {session after : Session Instance World} {id : PassId}
    {pass : ResolvedPass Instance} {changed : Bool} (replayed : session.Replayed registry)
    (accepted : registry.Accepted) (fits : session.Fits registry) (invalid : ¬ session.isValid id)
    (found : registry.pass? id = some pass)
    (ran : session.runPass id pass = (.ok changed, after)) :
    (after.recordRan pass.descriptor.name changed).Concluding registry id := by
  have entered := replayed.runPass ran
  have sameValidity : (after.recordRan pass.descriptor.name changed).validity =
      session.validity := (runPass_frame ran).2
  have isId : registry.id? pass.descriptor.name = some id := by
    rw [← Registry.name_of_pass? found]
    exact accepted.id?_name (Registry.lt_size_of_pass? found)
  have recorded := (after.records_ran pass.descriptor.name changed).history
  have tells : (JournalEntry.noticed (.ran pass.descriptor.name changed)).event? =
      some ⟨pass.descriptor.name, .ran changed⟩ := rfl
  have states : statesAfter registry (after.recordRan pass.descriptor.name changed).history =
      Function.update (statesAfter registry after.history) id
        (if registry.isAnalysis id then .valid else .ranTransient) := by
    rw [recorded, statesAfter_of_name registry _ tells isId]
    rfl
  refine ⟨?_, ?_, ?_, ?_, ?_⟩
  · rw [Fits, sameValidity]
    exact fits
  · rw [isValid, sameValidity]
    exact invalid
  · intro other isOther
    rw [states, Function.update_of_ne isOther]
    exact entered.states other
  · rw [states, Function.update_self]
  · rw [recorded]
    refine entered.permitted.concat fun event tellsEvent => ?_
    cases tellsEvent
    refine ⟨id, isId, fun _ => ?_⟩
    rw [← entered.states id, (runPass_frame ran).2, Ne, ← ValiditySet.isValid_iff]
    exact invalid

/-- The run of a pass that is not valid is permitted, and so is everything that it invalidates. -/
theorem Executed.replayed {session : Session Instance World} {id : PassId}
    {attempt : Attempt Instance World Bool} (executed : Executed registry session id attempt)
    (accepted : registry.Accepted) (fits : session.Fits registry) (invalid : ¬ session.isValid id)
    (replayed : session.Replayed registry) :
    attempt.2.Replayed registry := by
  cases executed with
  | unknown => exact replayed
  | stale => exact replayed
  | failed _ _ ran => exact replayed.runPass ran
  | ran found _ ran =>
      exact (replayed.concluding accepted fits invalid found ran).conclude accepted
        (Registry.lt_size_of_pass? found) (Registry.isAnalysis_of_pass? found)

/-! ## Demands and requests -/

/-- Passes that wait are not valid, and stay so while prerequisites are met: none of them runs. -/
theorem Met.replayed {path pending : List PassId} {session : Session Instance World}
    {attempt : Attempt Instance World Unit} (met : Met registry path pending session attempt)
    (accepted : registry.Accepted) (fits : session.Fits registry)
    (waiting : ∀ id ∈ path, ¬ session.isValid id) (replayed : session.Replayed registry) :
    attempt.2.Replayed registry ∧ ∀ id ∈ path, ¬ attempt.2.isValid id := by
  induction met with
  | done => exact ⟨replayed, waiting⟩
  | circular => exact ⟨replayed, waiting⟩
  | tooDeep => exact ⟨replayed, waiting⟩
  | @cached path pending next session attempt valid _ inductionHypothesis =>
      have inside : next < registry.size := fits ▸ ValiditySet.lt_of_isValid valid
      have records := session.records_cached (registry.name next)
      refine inductionHypothesis fits waiting (replayed.unchanged records rfl rfl ?_ fun _ _ => rfl)
      refine ⟨next, accepted.id?_name inside, ?_⟩
      show statesAfter registry session.history next = .valid
      rw [← replayed.states next]
      exact (ValiditySet.isValid_iff _ _).1 valid
  | blocked invalid _ _ _ above =>
      obtain ⟨replayedAbove, waitingAbove⟩ :=
        above fits (List.forall_mem_cons.2 ⟨invalid, waiting⟩) replayed
      exact ⟨replayedAbove, fun id onPath => waitingAbove id (List.mem_cons_of_mem _ onPath)⟩
  | failed invalid _ _ aboveMet executed above =>
      obtain ⟨replayedAbove, waitingAbove⟩ :=
        above fits (List.forall_mem_cons.2 ⟨invalid, waiting⟩) replayed
      refine ⟨executed.replayed accepted (aboveMet.fits fits)
        (waitingAbove _ List.mem_cons_self) replayedAbove, ?_⟩
      intro id onPath
      rw [isValid, executed.validity_of_error rfl]
      exact waitingAbove id (List.mem_cons_of_mem _ onPath)
  | @ran path pending next changed session between after attempt invalid offPath _ aboveMet
      executed _ above rest =>
      have fitsBetween := aboveMet.fits fits
      obtain ⟨replayedAbove, waitingAbove⟩ :=
        above fits (List.forall_mem_cons.2 ⟨invalid, waiting⟩) replayed
      refine rest (executed.fits fitsBetween) ?_ (executed.replayed accepted fitsBetween
        (waitingAbove next List.mem_cons_self) replayedAbove)
      intro id onPath valid
      rcases (executed.isValid_of_ok fitsBetween rfl id).1 valid with ⟨isNext, _⟩ | ⟨_, was, _⟩
      · exact offPath (isNext ▸ onPath)
      · exact waitingAbove id (List.mem_cons_of_mem _ onPath) was

theorem Demanded.replayed {session : Session Instance World} {id : PassId}
    {attempt : Attempt Instance World Bool} (demanded : Demanded registry session id attempt)
    (accepted : registry.Accepted) (fits : session.Fits registry)
    (replayed : session.Replayed registry) :
    attempt.2.Replayed registry := by
  have opened : ∀ name, (session.note (.demanded name)).Replayed registry :=
    fun name => replayed.silent (session.records_demanded name) rfl (by simp [JournalEntry.event?])
  have found : ∀ {descriptor : Descriptor}, registry.descriptor? id = some descriptor →
      registry.id? descriptor.name = some id := by
    intro descriptor isDescriptor
    obtain ⟨pass, isPass, rfl⟩ := Option.map_eq_some_iff.1 isDescriptor
    rw [← Registry.name_of_pass? isPass]
    exact accepted.id?_name (Registry.lt_size_of_pass? isPass)
  cases demanded with
  | unknown => exact replayed
  | @skipped descriptor isDescriptor =>
      exact (opened descriptor.name).unchanged (records_skipped _ descriptor) rfl rfl
        ⟨id, found isDescriptor, trivial⟩ fun _ _ => rfl
  | @cached descriptor isDescriptor _ valid =>
      refine (opened descriptor.name).unchanged (records_cached _ descriptor.name) rfl rfl
        ⟨id, found isDescriptor, ?_⟩ fun _ _ => rfl
      rw [← (opened descriptor.name).states id]
      exact (ValiditySet.isValid_iff _ _).1 valid
  | @blocked descriptor _ _ _ _ invalid met =>
      exact (met.replayed accepted fits (List.forall_mem_singleton.2 invalid)
        (opened descriptor.name)).1
  | @ran descriptor _ _ _ _ invalid met executed =>
      obtain ⟨replayedBetween, waiting⟩ :=
        met.replayed accepted fits (List.forall_mem_singleton.2 invalid) (opened descriptor.name)
      exact executed.replayed accepted (met.fits fits) (waiting id List.mem_cons_self)
        replayedBetween

theorem Move.replayed {before after : Session Instance World} (moved : Move registry before after)
    (accepted : registry.Accepted) (fits : before.Fits registry)
    (replayed : before.Replayed registry) :
    after.Replayed registry := by
  cases moved with
  | demand id => exact (demanded registry before id).replayed accepted fits replayed
  | reset => exact replayed.reset
  | setLevel level =>
      exact replayed.silent (before.records_setLevel level) rfl (by simp [JournalEntry.event?])
  | told silent =>
      refine replayed.silent (before.records_told silent) rfl ?_
      simpa [JournalEntry.event?] using silent
  | clearTrace => exact ⟨replayed.states, replayed.permitted⟩

theorem Reachable.replayed {session : Session Instance World}
    (reachable : Reachable registry session) (accepted : registry.Accepted) :
    session.Replayed registry := by
  have both : session.Fits registry ∧ session.Replayed registry := by
    apply reachable.invariant
    · exact fun level world => ⟨List.length_replicate, replayed_start registry level world⟩
    · exact fun session world held => ⟨held.1, held.2.states, held.2.permitted⟩
    · intro before after moved held
      exact ⟨fits_of_moves (.single moved) held.1, moved.replayed accepted held.1 held.2⟩
  exact both.2

/-- What has been handed out and what is still in the trace are the events of the journal; those
since the last reset lead to the states that the session keeps, and every event is permitted by the
states that the events before it lead to, in which no transformation is valid or invalidated. -/
theorem Recorded.replay {out : List Event} {session : Session Instance World}
    (recorded : Recorded registry out session) (accepted : registry.Accepted) :
    out ++ session.trace.toList = session.history.filterMap JournalEntry.event? ∧
      (∀ id, session.validity.state id = statesAfter registry session.history id) ∧
      (∀ before entry event, before ++ [entry] <+: session.history → entry.event? = some event →
        registry.Permits (statesAfter registry before) event) ∧
      ∀ before, before <+: session.history → ∀ id, ¬ registry.isAnalysis id →
        statesAfter registry before id ≠ .valid ∧
          statesAfter registry before id ≠ .invalidated := by
  have replayed := recorded.reachable.replayed accepted
  refine ⟨recorded.events, replayed.states, replayed.permitted, ?_⟩
  intro before isPrefix id isTransformation
  have permitted : Permitted registry before :=
    fun earlier entry event isEarlier =>
      replayed.permitted earlier entry event (isEarlier.trans isPrefix)
  exact permitted.transient isTransformation

/-- The requests of a session over the standard passes that demands `const-fold`, takes the trace,
and demands `verify` again. -/
def foldThenVerify : List Request :=
  [.demandNamed "const-fold", .takeTrace, .demandNamed "verify"]

/-- The session over the standard passes after some requests, on a function that returns zero. -/
def afterRequests (requests : List Request) : Session StandardPass Program :=
  (Session.start (.ofPasses StandardPass.resolved) 1
    (.ofFunctions [⟨"main", [], [⟨"entry", [], .ret (.imm 0)⟩]⟩])).performAll
      (.ofPasses StandardPass.resolved) requests

theorem Recorded.replay_foldThenVerify :
    (Registry.ofPasses StandardPass.resolved).Accepted ∧
      Recorded (.ofPasses StandardPass.resolved)
        [⟨"verify", .ran false⟩, ⟨"const-fold", .ran false⟩, ⟨"verify", .invalidated⟩]
        (afterRequests foldThenVerify) ∧
      (afterRequests foldThenVerify).trace.toList = [⟨"verify", .ran false⟩] ∧
      ∀ id, (afterRequests foldThenVerify).validity.state id =
        statesAfter (.ofPasses StandardPass.resolved)
          (afterRequests foldThenVerify).history id := by
  have accepted := StandardPass.accepted StandardPass.registry_eq
  have recorded : Recorded (.ofPasses StandardPass.resolved)
      [⟨"verify", .ran false⟩, ⟨"const-fold", .ran false⟩, ⟨"verify", .invalidated⟩]
      (afterRequests foldThenVerify) := by
    have started : Recorded (.ofPasses StandardPass.resolved) [] (afterRequests []) := .start 1 _
    have folded : Recorded (.ofPasses StandardPass.resolved) []
        (afterRequests [.demandNamed "const-fold"]) := started.performed_of_ne (by simp)
    have isOut : (afterRequests [.demandNamed "const-fold"]).trace.toList =
        [⟨"verify", .ran false⟩, ⟨"const-fold", .ran false⟩, ⟨"verify", .invalidated⟩] := by
      cbv
    have taken := folded.taken
    rw [isOut] at taken
    exact taken.performed_of_ne (by simp)
  obtain ⟨_, states, _⟩ := recorded.replay accepted
  exact ⟨accepted, recorded, by cbv, states⟩

end Session

end PassScheduler
