import PassScheduler.Proofs.Schedule.Course

/-!
Contract: a session meets its world through the passes alone.

What can be seen of a world is a view of it if every pass does to what is seen what it does to the
world. Requests to a session then do to what is seen of it what they would do to a session that has
only that.

Owns:
- views, and that every request can be made of what is seen instead;
- observed worlds, which remember what each pass found when it was entered and are seen without
  that.

Does not own: what any pass finds.
-/

open Relation (ReflTransGen)

namespace PassScheduler

variable {Instance World View : Type} [Pass Instance World] [Pass Instance View]

/-- Passes do to what is seen of a world what they do to the world. -/
def IsView (Instance : Type) {World View : Type} [Pass Instance World] [Pass Instance View]
    (view : World → View) : Prop :=
  ∀ (bound : Instance) (world : World),
    Pass.run bound (view world) =
      ((Pass.run bound world).1, (Pass.run bound world).2.1, view (Pass.run bound world).2.2)

namespace Session

section Seen

variable {Instance World View : Type} (view : World → View)

/-- A session with what is seen of its world in the place of the world. -/
def viewed (session : Session Instance World) : Session Instance View :=
  ⟨session.level, session.validity, session.instances, session.trace, session.journal,
    view session.world⟩

/-- An attempt with what is seen of its session. -/
def seen {α : Type} (attempt : Attempt Instance World α) : Attempt Instance View α :=
  (attempt.1, attempt.2.viewed view)

theorem foldl_invalidate_viewed (registry : Registry Instance) (session : Session Instance World)
    (ids : List PassId) :
    ids.foldl (invalidate registry) (session.viewed view) =
      (ids.foldl (invalidate registry) session).viewed view := by
  apply List.foldl_hom
  intro session id
  unfold invalidate
  by_cases valid : session.isValid id
  · have sameValid : (session.viewed view).isValid id := valid
    rw [if_pos valid, if_pos sameValid]
    rfl
  · have sameInvalid : ¬ (session.viewed view).isValid id := valid
    rw [if_neg valid, if_neg sameInvalid]

theorem conclude_viewed (registry : Registry Instance) (session : Session Instance World)
    (id : PassId) (kind : PassKind) :
    (session.viewed view).conclude registry id kind =
      (session.conclude registry id kind).viewed view := by
  unfold conclude
  rw [foldl_invalidate_viewed]
  rfl

theorem obtain_viewed (session : Session Instance World) (id : PassId)
    (pass : ResolvedPass Instance) :
    (session.viewed view).obtain id pass =
      ((session.obtain id pass).1, (session.obtain id pass).2.viewed view) := by
  have sameBinding : (session.viewed view).binding? id = session.binding? id := rfl
  unfold obtain
  rw [sameBinding]
  cases session.binding? id <;> rfl

end Seen

variable {registry : Registry Instance} {view : World → View}

/-! ## One demand -/

theorem runPass_viewed (isView : IsView Instance view) (session : Session Instance World)
    (id : PassId) (pass : ResolvedPass Instance) :
    (session.viewed view).runPass id pass =
      ((session.runPass id pass).1, (session.runPass id pass).2.viewed view) := by
  have ran := isView (session.obtain id pass).1.bound (session.obtain id pass).2.world
  have seenWorld : ((session.obtain id pass).2.viewed view).world =
      view (session.obtain id pass).2.world := rfl
  unfold runPass
  rw [obtain_viewed]
  simp only [enter, seenWorld, ran]
  rfl

theorem Executed.viewed (isView : IsView Instance view) {session : Session Instance World}
    {id : PassId} {attempt : Attempt Instance World Bool}
    (executed : Executed registry session id attempt) :
    Executed registry (session.viewed view) id (seen view attempt) := by
  cases executed with
  | unknown missing => exact .unknown missing
  | stale found listed isAnalysis invalid => exact .stale found listed isAnalysis invalid
  | failed found fresh ran =>
      refine .failed found fresh ?_
      rw [runPass_viewed isView, ran]
  | @ran pass changed after found fresh ran =>
      have ranViewed :
          (session.viewed view).runPass id pass = (.ok changed, after.viewed view) := by
        rw [runPass_viewed isView, ran]
      have concluded := conclude_viewed view registry (after.recordRan pass.descriptor.name changed)
        id pass.descriptor.kind
      have freshViewed : ∀ other, registry.Requires id other → registry.isAnalysis other →
          (session.viewed view).isValid other := fresh
      have done : Executed registry (session.viewed view) id
          (.ok changed,
            ((after.recordRan pass.descriptor.name changed).viewed view).conclude registry id
              pass.descriptor.kind) := .ran found freshViewed ranViewed
      rw [concluded] at done
      exact done

theorem execute_viewed (isView : IsView Instance view) (session : Session Instance World)
    (id : PassId) :
    (session.viewed view).execute registry id = seen view (session.execute registry id) := by
  cases found : registry.pass? id with
  | none =>
      unfold execute
      simp only [found]
      rfl
  | some pass =>
      cases checked : pass.requirements.find? fun other =>
          registry.isAnalysis other && !session.isValid other with
      | some stale =>
          have checkedViewed : (pass.requirements.find? fun other =>
              registry.isAnalysis other && !(session.viewed view).isValid other) = some stale :=
            checked
          unfold execute
          simp only [found, checked, checkedViewed]
          rfl
      | none =>
          rw [execute_eq_runPass session found checked,
            execute_eq_runPass (session.viewed view) found checked, runPass_viewed isView]
          cases session.runPass id pass with
          | mk result after =>
              cases result with
              | error cause => rfl
              | ok changed =>
                  exact Prod.ext rfl (conclude_viewed view registry
                    (after.recordRan pass.descriptor.name changed) id pass.descriptor.kind)

/-- A turn with what is seen of the session that it leads to. -/
def Turn.seen (view : World → View) : Turn Instance World → Turn Instance View
  | .go stack session => .go stack (session.viewed view)
  | .stop attempt => .stop (Session.seen view attempt)

theorem turn_viewed (isView : IsView Instance view) (stack : List Frame)
    (session : Session Instance World) :
    turn registry stack (session.viewed view) = (turn registry stack session).seen view := by
  match stack with
  | [] => rfl
  | ⟨id, []⟩ :: below =>
      simp only [turn, execute_viewed isView]
      cases session.execute registry id with
      | mk result after =>
          cases result with
          | error error => rfl
          | ok changed =>
              simp only [seen]
              split <;> rfl
  | ⟨id, next :: pending⟩ :: below =>
      have sameValid : (session.viewed view).isValid next = session.isValid next := rfl
      simp only [turn, sameValid]
      split
      · rfl
      · split
        · rfl
        · split <;> rfl

theorem resolve_viewed (isView : IsView Instance view) (stack : List Frame)
    (session : Session Instance World) :
    resolve registry stack (session.viewed view) = seen view (resolve registry stack session) := by
  induction stack, session using @resolve.induct Instance World ‹_› registry with
  | case1 stack session attempt moved =>
      rw [resolve_eq_turn, resolve_eq_turn, turn_viewed isView, moved]
      rfl
  | case2 stack session next after moved inductionHypothesis =>
      rw [resolve_eq_turn, resolve_eq_turn, turn_viewed isView, moved]
      exact inductionHypothesis

theorem demand_viewed (isView : IsView Instance view) (session : Session Instance World)
    (id : PassId) :
    (session.viewed view).demand registry id = seen view (session.demand registry id) := by
  have sameLevel : (session.viewed view).level = session.level := rfl
  unfold demand
  cases registry.descriptor? id with
  | none => rfl
  | some descriptor =>
      have opened : (session.viewed view).note (.demanded descriptor.name) =
          (session.note (.demanded descriptor.name)).viewed view := rfl
      have sameValid : ((session.note (.demanded descriptor.name)).viewed view).isValid id =
          (session.note (.demanded descriptor.name)).isValid id := rfl
      have openedLevel : ((session.note (.demanded descriptor.name)).viewed view).level =
          (session.note (.demanded descriptor.name)).level := rfl
      simp only [opened, openedLevel, sameValid, resolve_viewed isView]
      split
      · rfl
      · split <;> rfl

/-! ## One request -/

theorem demandAll_viewed (isView : IsView Instance view) (ids : List PassId)
    (session : Session Instance World) :
    demandAll registry ids (session.viewed view) = seen view (demandAll registry ids session) := by
  induction ids generalizing session with
  | nil => rfl
  | cons id ids inductionHypothesis =>
      unfold demandAll
      rw [demand_viewed isView]
      cases session.demand registry id with
      | mk result between =>
          cases result with
          | error error => rfl
          | ok changed =>
              simp only [seen, inductionHypothesis]
              cases demandAll registry ids between with
              | mk result after => cases result <;> rfl

omit [Pass Instance World] [Pass Instance View] in
theorem tell_viewed (summary : Level → Bool → Notice)
    (attempt : Attempt Instance World Bool) :
    tell summary (seen view attempt) = seen view (tell summary attempt) := by
  obtain ⟨result, after⟩ := attempt
  cases result <;> rfl

theorem runOnce_viewed (isView : IsView Instance view) (session : Session Instance World) :
    (session.viewed view).runOnce registry = seen view (session.runOnce registry) := by
  rw [runOnce_eq_tell, runOnce_eq_tell, ← tell_viewed, ← demandAll_viewed isView]
  rfl

theorem runList_viewed (isView : IsView Instance view) (names : List String)
    (session : Session Instance World) :
    (session.viewed view).runList registry names = seen view (session.runList registry names) := by
  cases resolved : registry.resolveNames names with
  | error error =>
      unfold runList
      rw [resolved]
      rfl
  | ok ids =>
      rw [runList_eq_tell resolved, runList_eq_tell resolved, ← tell_viewed,
        ← demandAll_viewed isView]
      rfl

omit [Pass Instance World] [Pass Instance View] in
theorem repeatRun_viewed {run : Session Instance World → Attempt Instance World Bool}
    {runSeen : Session Instance View → Attempt Instance View Bool}
    (each : ∀ session, runSeen (session.viewed view) = seen view (run session))
    (made remaining : Nat) (session : Session Instance World) :
    repeatRun runSeen made remaining (session.viewed view) =
      seen view (repeatRun run made remaining session) := by
  induction remaining generalizing made session with
  | zero => rfl
  | succ remaining inductionHypothesis =>
      unfold repeatRun
      rw [each]
      cases run session with
      | mk result after =>
          cases result with
          | error error => rfl
          | ok changed =>
              cases changed with
              | false => rfl
              | true => exact inductionHypothesis (made + 1) after

/-- A request answers, and leaves, what can be seen of a session as it answers and leaves the
session. -/
theorem perform_viewed (isView : IsView Instance view) (session : Session Instance World)
    (request : Request) :
    (session.viewed view).perform registry request =
      seen view (session.perform registry request) := by
  have answered : ∀ {α : Type} (wrap : α → Answer) (attempt : Attempt Instance World α),
      answering wrap (seen view attempt) = seen view (answering wrap attempt) := fun _ _ => rfl
  cases request with
  | demandNamed name =>
      simp only [perform, ← answered]
      unfold demandNamed
      cases registry.id? name with
      | none => rfl
      | some id => simp only [demand_viewed isView]
  | demand id => simp only [perform, ← answered, demand_viewed isView]
  | runOnce => simp only [perform, ← answered, runOnce_viewed isView]
  | runList names => simp only [perform, ← answered, runList_viewed isView]
  | runToFixedPoint cap =>
      simp only [perform, ← answered]
      unfold runToFixedPoint
      rw [repeatRun_viewed (runOnce_viewed isView)]
  | runListToFixedPoint names cap =>
      simp only [perform, ← answered]
      unfold runListToFixedPoint
      cases registry.resolveNames names with
      | error error => rfl
      | ok ids => simp only [repeatRun_viewed (runList_viewed isView names)]
  | setLevel level => rfl
  | reset => rfl
  | takeTrace => rfl

theorem performAll_viewed (isView : IsView Instance view) (session : Session Instance World)
    (requests : List Request) :
    (session.viewed view).performAll registry requests =
      (session.performAll registry requests).viewed view := by
  unfold performAll
  apply List.foldl_hom
  intro session request
  rw [perform_viewed isView]
  rfl

/-! ## Steps -/

theorem Step.viewed (isView : IsView Instance view) {before after : Session Instance World}
    (stepped : Step registry before after) :
    Step registry (before.viewed view) (after.viewed view) := by
  cases stepped with
  | demanded pass => exact .demanded _ pass
  | skipped descriptor => exact .skipped _ descriptor
  | @cached id valid =>
      have validOver : (before.viewed view).isValid id := valid
      exact .cached validOver
  | executed executed => exact .executed (executed.viewed isView)
  | reset => exact .reset _
  | setLevel level => exact .setLevel _ level
  | told silent => exact .told _ silent
  | clearTrace => exact .clearTrace _

end Session

/-! ## Observed worlds -/

/-- A world together with every pass that was entered on it and the world that this pass found, in
the order in which they were entered. -/
structure Observed (Instance World : Type) where
  world : World
  entries : List (Instance × World)

namespace Observed

variable {Instance World : Type}

/-- A world on which no pass has been entered. -/
def ofWorld (world : World) : Observed Instance World :=
  ⟨world, []⟩

variable [Pass Instance World]

instance : Pass Instance (Observed Instance World) where
  run bound observed :=
    let (result, after, world) := Pass.run bound observed.world
    (result, after, ⟨world, observed.entries ++ [(bound, observed.world)]⟩)

/-- To observe a world changes nothing about it. -/
theorem isView : IsView Instance (world : Observed Instance World → World) :=
  fun _ _ => rfl

variable {registry : Registry Instance}

theorem entries_of_runPass {session after : Session Instance (Observed Instance World)}
    {id : PassId} {pass : ResolvedPass Instance} {result : Except PassError Bool}
    (ran : session.runPass id pass = (result, after)) :
    after.world.entries =
      session.world.entries ++ [((session.obtain id pass).1.bound, session.world.world)] := by
  obtain ⟨_, _, sameWorld⟩ := session.obtain_frame id pass
  have entered : after = (session.runPass id pass).2 := by rw [ran]
  rw [entered, ← sameWorld]
  rfl

/-- If whatever a pass finds on being entered has some property while an invariant holds, then all
entries have that property. -/
theorem entries_of_steps {invariant : Session Instance World → Prop}
    {allowed : Instance → World → Prop}
    (stepped : ∀ before after, Session.Step registry before after → invariant before →
      invariant after)
    (entered : ∀ (session : Session Instance World) id pass, invariant session →
      registry.pass? id = some pass →
      (∀ other, registry.Requires id other → registry.isAnalysis other → session.isValid other) →
      allowed (session.obtain id pass).1.bound session.world)
    {before after : Session Instance (Observed Instance World)}
    (steps : ReflTransGen (Session.Step registry) before after)
    (initial : invariant (before.viewed world))
    (allowedBefore : ∀ entry ∈ before.world.entries, allowed entry.1 entry.2) :
    invariant (after.viewed world) ∧ ∀ entry ∈ after.world.entries, allowed entry.1 entry.2 := by
  induction steps with
  | refl => exact ⟨initial, allowedBefore⟩
  | @tail middle last _ step inductionHypothesis =>
      obtain ⟨held, allowedMiddle⟩ := inductionHypothesis
      refine ⟨stepped _ _ (step.viewed isView) held, ?_⟩
      have ranEntries : ∀ {id pass result ran}, registry.pass? id = some pass →
          (∀ other, registry.Requires id other → registry.isAnalysis other →
            middle.isValid other) →
          middle.runPass id pass = (result, ran) →
          ∀ entry ∈ ran.world.entries, allowed entry.1 entry.2 := by
        intro id pass result ran found fresh isRun entry member
        rw [entries_of_runPass isRun] at member
        rcases List.mem_append.1 member with isOld | isNew
        · exact allowedMiddle entry isOld
        · rw [List.mem_singleton.1 isNew]
          have allowedNow := entered (middle.viewed world) id pass held found fresh
          rw [Session.obtain_viewed] at allowedNow
          exact allowedNow
      cases step with
      | executed executed =>
          cases executed with
          | unknown => exact allowedMiddle
          | stale => exact allowedMiddle
          | failed found fresh ran => exact ranEntries found fresh ran
          | @ran pass changed after found fresh ran =>
              obtain ⟨_, _, sameWorld⟩ := Session.conclude_frame registry
                (after.recordRan pass.descriptor.name changed) _ pass.descriptor.kind
              have allowedAfter := ranEntries found fresh ran
              rw [sameWorld]
              exact allowedAfter
      | _ => exact allowedMiddle

end Observed

end PassScheduler
