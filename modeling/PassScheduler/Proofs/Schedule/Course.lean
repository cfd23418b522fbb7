import Mathlib.Logic.Relation
import PassScheduler.Proofs.Schedule.Recursion
import PassScheduler.Schedule.Drive

/-!
Contract: which sessions can come about, and the steps that lead from one to the next.

Owns:
- `Move`, what a request does between its demands and what one demand does as a whole;
- `Step`, what a demand does between the runs of passes and what one run does;
- the drivers of demands, each said as attempts one after the other;
- that every request is a sequence of moves and every move a sequence of steps, and where an error
  of a request comes from;
- the reachable sessions, and how an invariant is shown of all of them;
- that the world changes by runs of passes only;
- that reachable sessions keep a state for every pass of their registry, and that nothing is valid
  at the start or after a reset.

Does not own: which passes are valid when.
-/

open Relation (ReflTransGen)

namespace PassScheduler.Session

variable {Instance World : Type} [Pass Instance World]

/-- What a request does, a demand at a time. -/
inductive Move (registry : Registry Instance) :
    Session Instance World → Session Instance World → Prop where
  | demand (session : Session Instance World) (id : PassId) :
      Move registry session (session.demand registry id).2
  | reset (session : Session Instance World) : Move registry session session.reset
  | setLevel (session : Session Instance World) (level : Level) :
      Move registry session (session.setLevel level)
  | told (session : Session Instance World) {notice : Notice} (silent : notice.event? = none) :
      Move registry session (session.notice notice)
  | clearTrace (session : Session Instance World) : Move registry session session.clearTrace

/-- What a request does, a decision at a time. -/
inductive Step (registry : Registry Instance) :
    Session Instance World → Session Instance World → Prop where
  | demanded (session : Session Instance World) (pass : String) :
      Step registry session (session.note (.demanded pass))
  | skipped (session : Session Instance World) (descriptor : Descriptor) :
      Step registry session (session.recordSkipped descriptor)
  | cached {session : Session Instance World} {id : PassId} (valid : session.isValid id) :
      Step registry session (session.recordCached (registry.name id))
  | executed {session : Session Instance World} {id : PassId}
      {attempt : Attempt Instance World Bool} (executed : Executed registry session id attempt) :
      Step registry session attempt.2
  | reset (session : Session Instance World) : Step registry session session.reset
  | setLevel (session : Session Instance World) (level : Level) :
      Step registry session (session.setLevel level)
  | told (session : Session Instance World) {notice : Notice} (silent : notice.event? = none) :
      Step registry session (session.notice notice)
  | clearTrace (session : Session Instance World) : Step registry session session.clearTrace

variable {registry : Registry Instance}

/-! ## A demand as steps -/

theorem Met.steps {path pending : List PassId} {session : Session Instance World}
    {attempt : Attempt Instance World Unit} (met : Met registry path pending session attempt) :
    ReflTransGen (Step registry) session attempt.2 := by
  induction met with
  | done => exact .refl
  | cached valid _ inductionHypothesis => exact .head (.cached valid) inductionHypothesis
  | circular => exact .refl
  | tooDeep => exact .refl
  | blocked _ _ _ _ above => exact above
  | failed _ _ _ _ executed above => exact .tail above (.executed executed)
  | ran _ _ _ _ executed _ above rest => exact (above.tail (.executed executed)).trans rest

theorem Demanded.steps {session : Session Instance World} {id : PassId}
    {attempt : Attempt Instance World Bool} (demanded : Demanded registry session id attempt) :
    ReflTransGen (Step registry) session attempt.2 := by
  cases demanded with
  | unknown => exact .refl
  | skipped => exact (ReflTransGen.single (.demanded session _)).tail (.skipped _ _)
  | @cached descriptor found _ valid =>
      have named : descriptor.name = registry.name id := by simp [Registry.name, found]
      have noted : (session.note (.demanded (registry.name id))).isValid id := valid
      rw [named]
      exact (ReflTransGen.single (.demanded session _)).tail (.cached noted)
  | blocked _ _ _ met => exact .head (.demanded session _) met.steps
  | ran _ _ _ met executed =>
      exact .head (.demanded session _) (met.steps.tail (.executed executed))

theorem Move.steps {session after : Session Instance World} (moved : Move registry session after) :
    ReflTransGen (Step registry) session after := by
  cases moved with
  | demand id => exact (demanded registry session id).steps
  | reset => exact .single (.reset session)
  | setLevel level => exact .single (.setLevel session level)
  | told silent => exact .single (.told session silent)
  | clearTrace => exact .single (.clearTrace session)

theorem steps_of_moves {session after : Session Instance World}
    (moves : ReflTransGen (Move registry) session after) :
    ReflTransGen (Step registry) session after := by
  induction moves with
  | refl => exact .refl
  | tail _ moved inductionHypothesis => exact inductionHypothesis.trans moved.steps

/-! ## Drivers as attempts one after the other -/

theorem demandAll_cons (id : PassId) (rest : List PassId) (session : Session Instance World) :
    demandAll registry (id :: rest) session =
      andThen (session.demand registry id) fun changed session =>
        andThen (demandAll registry rest session) fun more session =>
          (.ok (changed || more), session) := by
  rw [demandAll]
  cases session.demand registry id with
  | mk result between =>
      cases result with
      | error error => rfl
      | ok changed =>
          dsimp only [andThen]
          cases demandAll registry rest between with
          | mk result after => cases result <;> rfl

/-- What a run makes of its demands: unless one failed, it tells what they came to. -/
def tell (summary : Level → Bool → Notice) :
    Attempt Instance World Bool → Attempt Instance World Bool
  | (.error error, session) => (.error error, session)
  | (.ok changed, session) => (.ok changed, session.notice (summary session.level changed))

omit [Pass Instance World] in
theorem tell_eq_andThen (summary : Level → Bool → Notice) (attempt : Attempt Instance World Bool) :
    tell summary attempt = andThen attempt fun changed session =>
      (.ok changed, session.notice (summary session.level changed)) := by
  obtain ⟨result, after⟩ := attempt
  cases result <;> rfl

omit [Pass Instance World] in
theorem tell_eq_ok {summary : Level → Bool → Notice} {attempt : Attempt Instance World Bool}
    {changed : Bool} {after : Session Instance World} :
    tell summary attempt = (.ok changed, after) ↔
      ∃ last, attempt = (.ok changed, last) ∧
        after = last.notice (summary last.level changed) := by
  rw [tell_eq_andThen, andThen_eq_ok]
  constructor
  · rintro ⟨_, last, answered, ⟨⟩⟩
    exact ⟨last, answered, rfl⟩
  · rintro ⟨last, answered, rfl⟩
    exact ⟨changed, last, answered, rfl⟩

theorem runOnce_eq_tell (session : Session Instance World) :
    session.runOnce registry =
      tell .runFinished (demandAll registry (registry.candidates session.level) session.reset) :=
  rfl

theorem runList_eq_tell {names : List String} {ids : List PassId}
    (resolved : registry.resolveNames names = .ok ids) (session : Session Instance World) :
    session.runList registry names =
      tell (fun level => .listFinished level names.length)
        (demandAll registry ids session.reset) := by
  unfold runList
  rw [resolved]
  rfl

omit [Pass Instance World] in
theorem repeatRun_succ (run : Session Instance World → Attempt Instance World Bool)
    (made remaining : Nat) (session : Session Instance World) :
    repeatRun run made (remaining + 1) session =
      andThen (run session) fun changed session =>
        if changed then repeatRun run (made + 1) remaining session
        else (.ok ⟨made + 1, true⟩, session.notice (.fixedPointReached (made + 1))) := by
  rw [repeatRun]
  cases run session with
  | mk result after =>
      cases result with
      | error error => rfl
      | ok changed => cases changed <;> rfl

/-! ## A request as moves -/

/-- An error of a request is a name that no pass has, or the error of one of its demands. -/
inductive Origin (registry : Registry Instance) (session : Session Instance World) :
    ScheduleError → Prop where
  | name (name : String) : Origin registry session (.unknownPass name)
  | demand {before : Session Instance World} {id : PassId} {error : ScheduleError}
      (moves : ReflTransGen (Move registry) session before)
      (failed : (before.demand registry id).1 = .error error) :
      Origin registry session error

/-- An attempt that is made of moves, and whose error comes from one of them. -/
structure Follows {α : Type} (registry : Registry Instance) (session : Session Instance World)
    (attempt : Attempt Instance World α) : Prop where
  moves : ReflTransGen (Move registry) session attempt.2
  origin : ∀ error, attempt.1 = .error error → Origin registry session error

namespace Follows

variable {α : Type} {session : Session Instance World}

theorem of_ok {answer : α} {after : Session Instance World}
    (moves : ReflTransGen (Move registry) session after) :
    Follows registry session (.ok answer, after) :=
  ⟨moves, fun _ failed => by cases failed⟩

theorem unknown (name : String) :
    Follows registry session
      ((.error (.unknownPass name), session) : Attempt Instance World α) where
  moves := .refl
  origin := by
    rintro _ ⟨⟩
    exact .name name

/-- What follows after some moves follows from where they began. -/
theorem after_moves {between : Session Instance World} {attempt : Attempt Instance World α}
    (moves : ReflTransGen (Move registry) session between)
    (follows : Follows registry between attempt) :
    Follows registry session attempt where
  moves := moves.trans follows.moves
  origin := by
    intro error failed
    cases follows.origin error failed with
    | name name => exact .name name
    | demand more failed => exact .demand (moves.trans more) failed

/-- What follows an attempt is made of the moves of both, and fails with the error of either. -/
theorem andThen {β : Type} {attempt : Attempt Instance World α}
    {next : α → Session Instance World → Attempt Instance World β}
    (follows : Follows registry session attempt)
    (nextFollows : ∀ answer between, Follows registry between (next answer between)) :
    Follows registry session (Session.andThen attempt next) := by
  obtain ⟨result, between⟩ := attempt
  cases result with
  | ok answer => exact (nextFollows answer between).after_moves follows.moves
  | error error =>
      refine ⟨follows.moves, ?_⟩
      rintro _ ⟨⟩
      exact follows.origin error rfl

theorem answering {attempt : Attempt Instance World α} (follows : Follows registry session attempt)
    (wrap : α → Answer) :
    Follows registry session (Session.answering wrap attempt) where
  moves := follows.moves
  origin := by
    intro error failed
    obtain ⟨result, after⟩ := attempt
    cases result with
    | error reason =>
        obtain rfl : reason = error := Except.error.inj failed
        exact follows.origin reason rfl
    | ok answer => cases failed

end Follows

theorem follows_demand (session : Session Instance World) (id : PassId) :
    Follows registry session (session.demand registry id) where
  moves := .single (.demand session id)
  origin _ failed := .demand .refl failed

theorem follows_demandAll (ids : List PassId) (session : Session Instance World) :
    Follows registry session (demandAll registry ids session) := by
  induction ids generalizing session with
  | nil => exact .of_ok .refl
  | cons id ids inductionHypothesis =>
      rw [demandAll_cons]
      refine (follows_demand session id).andThen fun changed between => ?_
      exact (inductionHypothesis between).andThen fun more after => .of_ok .refl

/-- A run that resets, demands some passes and tells of itself. -/
private theorem follows_run (ids : List PassId) (session : Session Instance World)
    {summary : Level → Bool → Notice}
    (silent : ∀ level changed, (summary level changed).event? = none) :
    Follows registry session (tell summary (demandAll registry ids session.reset)) := by
  rw [tell_eq_andThen]
  refine .after_moves (.single (.reset session)) ?_
  refine (follows_demandAll ids session.reset).andThen fun changed after => ?_
  exact .of_ok (.single (.told after (silent after.level changed)))

theorem follows_runOnce (session : Session Instance World) :
    Follows registry session (session.runOnce registry) := by
  rw [runOnce_eq_tell]
  exact follows_run _ session fun _ _ => rfl

theorem resolveNames_error {names : List String} {error : ScheduleError}
    (failed : registry.resolveNames names = .error error) :
    ∃ name, error = .unknownPass name := by
  induction names with
  | nil => cases failed
  | cons name rest inductionHypothesis =>
      unfold Registry.resolveNames at failed
      cases found : registry.id? name with
      | none =>
          rw [found] at failed
          exact ⟨name, (Except.error.inj failed).symm⟩
      | some id =>
          cases others : registry.resolveNames rest with
          | error reason =>
              simp only [found, others, Except.map, Except.error.injEq] at failed
              exact inductionHypothesis (failed ▸ others)
          | ok ids => simp [found, others, Except.map] at failed

theorem follows_runList (names : List String) (session : Session Instance World) :
    Follows registry session (session.runList registry names) := by
  cases resolved : registry.resolveNames names with
  | error error =>
      obtain ⟨name, rfl⟩ := resolveNames_error resolved
      unfold runList
      rw [resolved]
      exact .unknown name
  | ok ids =>
      rw [runList_eq_tell resolved]
      exact follows_run ids session fun _ _ => rfl

theorem follows_repeatRun {run : Session Instance World → Attempt Instance World Bool}
    (each : ∀ session, Follows registry session (run session)) (made remaining : Nat)
    (session : Session Instance World) :
    Follows registry session (repeatRun run made remaining session) := by
  induction remaining generalizing made session with
  | zero => exact .of_ok (.single (.told session rfl))
  | succ remaining inductionHypothesis =>
      rw [repeatRun_succ]
      refine (each session).andThen fun changed after => ?_
      cases changed with
      | false => exact .of_ok (.single (.told after rfl))
      | true => exact inductionHypothesis (made + 1) after

theorem follows_perform (session : Session Instance World) (request : Request) :
    Follows registry session (session.perform registry request) := by
  cases request with
  | demandNamed name =>
      refine Follows.answering ?_ .changed
      unfold demandNamed
      cases registry.id? name with
      | none => exact .unknown name
      | some id => exact follows_demand session id
  | demand id => exact (follows_demand session id).answering .changed
  | runOnce => exact (follows_runOnce session).answering .changed
  | runList names => exact (follows_runList names session).answering .changed
  | runToFixedPoint cap =>
      exact (follows_repeatRun follows_runOnce 0 cap session).answering .fixedPoint
  | runListToFixedPoint names cap =>
      refine Follows.answering ?_ .fixedPoint
      unfold runListToFixedPoint
      cases resolved : registry.resolveNames names with
      | error error =>
          obtain ⟨name, rfl⟩ := resolveNames_error resolved
          exact .unknown name
      | ok ids => exact follows_repeatRun (follows_runList names) 0 cap session
  | setLevel level => exact .of_ok (.single (.setLevel session level))
  | reset => exact .of_ok (.single (.reset session))
  | takeTrace => exact .of_ok (.single (.clearTrace session))

/-- What a session becomes when requests are met one after the other, failed ones included. -/
def performAll (registry : Registry Instance) (session : Session Instance World)
    (requests : List Request) : Session Instance World :=
  requests.foldl (fun session request => (session.perform registry request).2) session

theorem moves_performAll (session : Session Instance World) (requests : List Request) :
    ReflTransGen (Move registry) session (session.performAll registry requests) := by
  induction requests generalizing session with
  | nil => exact .refl
  | cons request requests inductionHypothesis =>
      exact (follows_perform session request).moves.trans (inductionHypothesis _)

/-! ## Reachable sessions -/

/-- The session with another world to work on. -/
def handed (session : Session Instance World) (world : World) : Session Instance World :=
  { session with world := world }

/-- The sessions that requests lead to, each on the world that it is handed. -/
inductive Reachable (registry : Registry Instance) : Session Instance World → Prop where
  | start (level : Level) (world : World) : Reachable registry (start registry level world)
  | handed {session : Session Instance World} (reachable : Reachable registry session)
      (world : World) : Reachable registry (session.handed world)
  | performed {session : Session Instance World} (reachable : Reachable registry session)
      (request : Request) : Reachable registry (session.perform registry request).2

theorem kept_of_steps {holds : Session Instance World → Prop}
    {before after : Session Instance World}
    (steps : ReflTransGen (Step registry) before after)
    (stepped : ∀ before after, Step registry before after → holds before → holds after)
    (held : holds before) :
    holds after := by
  induction steps with
  | refl => exact held
  | tail _ last inductionHypothesis => exact stepped _ _ last inductionHypothesis

theorem kept_of_moves {holds : Session Instance World → Prop}
    {before after : Session Instance World}
    (moves : ReflTransGen (Move registry) before after)
    (moved : ∀ before after, Move registry before after → holds before → holds after)
    (held : holds before) :
    holds after := by
  induction moves with
  | refl => exact held
  | tail _ last inductionHypothesis => exact moved _ _ last inductionHypothesis

theorem Reachable.invariant {holds : Session Instance World → Prop}
    {session : Session Instance World} (reachable : Reachable registry session)
    (initial : ∀ level world, holds (.start registry level world))
    (handed : ∀ session world, holds session → holds (session.handed world))
    (moved : ∀ before after, Move registry before after → holds before → holds after) :
    holds session := by
  induction reachable with
  | start level world => exact initial level world
  | handed _ world inductionHypothesis => exact handed _ world inductionHypothesis
  | @performed session _ request inductionHypothesis =>
      exact kept_of_moves (follows_perform session request).moves moved inductionHypothesis

/-! ## The world -/

/-- A step leaves the world as it is or hands it to an instance of a pass. -/
theorem Step.world {before after : Session Instance World} (stepped : Step registry before after) :
    after.world = before.world ∨
      ∃ bound : Instance, after.world = (Pass.run bound before.world).2.2 := by
  cases stepped with
  | @executed id _ executed =>
      cases executed with
      | unknown => exact .inl rfl
      | stale => exact .inl rfl
      | failed _ _ ran => exact .inr ⟨_, runPass_world ran⟩
      | @ran pass changed after _ _ ran =>
          obtain ⟨_, _, same⟩ := conclude_frame registry
            (after.recordRan pass.descriptor.name changed) id pass.descriptor.kind
          refine .inr ⟨(before.obtain id pass).1.bound, ?_⟩
          rw [same]
          show after.world = _
          exact runPass_world ran
  | _ => exact .inl rfl

/-! ## Sessions in which nothing is valid -/

omit [Pass Instance World] in
theorem not_isValid_start (registry : Registry Instance) (level : Level) (world : World)
    (id : PassId) :
    ¬ (start registry level world).isValid id := by
  rw [isValid, ValiditySet.isValid_iff, start, ValiditySet.state_fresh]
  simp

omit [Pass Instance World] in
theorem not_isValid_reset (session : Session Instance World) (id : PassId) :
    ¬ session.reset.isValid id := by
  rw [isValid, ValiditySet.isValid_iff, reset, ValiditySet.state_reset]
  simp

/-! ## A state for every pass -/

theorem Step.fits {before after : Session Instance World} (stepped : Step registry before after)
    (fits : before.Fits registry) :
    after.Fits registry := by
  cases stepped with
  | executed executed => exact executed.fits fits
  | reset =>
      show before.validity.reset.states.length = registry.size
      rw [ValiditySet.length_reset]
      exact fits
  | _ => exact fits

theorem Met.fits {path pending : List PassId} {session : Session Instance World}
    {attempt : Attempt Instance World Unit} (met : Met registry path pending session attempt)
    (fits : session.Fits registry) :
    attempt.2.Fits registry :=
  kept_of_steps met.steps (fun _ _ stepped held => stepped.fits held) fits

theorem fits_of_moves {before after : Session Instance World}
    (moves : ReflTransGen (Move registry) before after) (fits : before.Fits registry) :
    after.Fits registry :=
  kept_of_steps (steps_of_moves moves) (fun _ _ stepped held => stepped.fits held) fits

theorem Reachable.fits {session : Session Instance World}
    (reachable : Reachable registry session) :
    session.Fits registry := by
  apply reachable.invariant
  · intro level world
    exact List.length_replicate
  · intro session world held
    exact held
  · intro before after moved held
    exact fits_of_moves (.single moved) held

end PassScheduler.Session
