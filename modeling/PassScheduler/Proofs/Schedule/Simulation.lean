import Mathlib.Data.List.Forall2
import PassScheduler.Proofs.Schedule.Course

/-!
Contract: requests meet a scheduler through its demands alone.

Two schedulers that answer demands alike, and go from sessions that are related in some way to
sessions that are so again, answer requests alike. The two may number passes differently, as long as
requests name them.

Owns:
- requests of a scheduler that meets its demands in a given way, and that those of a session are
  requests of this kind;
- simulations, and that they carry over from demands to requests.

Does not own: how any demand is met.
-/

namespace PassScheduler

/-- Requests that are about passes by name, or about no passes. -/
def Request.ByName : Request → Prop
  | .demandNamed _ | .runList _ | .runListToFixedPoint _ _ | .setLevel _ | .reset => True
  | .demand _ | .runOnce | .runToFixedPoint _ | .takeTrace => False

/-- A way to meet the demand of a pass. -/
abbrev Demanding (Instance World : Type) :=
  Session Instance World → PassId → Attempt Instance World Bool

namespace Session

variable {Instance World : Type}

/-! ## Requests over given demands -/

section Requests

variable (registry : Registry Instance) (demand : Demanding Instance World)

def demandNamedBy (session : Session Instance World) (name : String) :
    Attempt Instance World Bool :=
  match registry.id? name with
  | none => (.error (.unknownPass name), session)
  | some id => demand session id

def demandAllBy : List PassId → Session Instance World → Attempt Instance World Bool
  | [], session => (.ok false, session)
  | id :: rest, session =>
      andThen (demand session id) fun changed session =>
        andThen (demandAllBy rest session) fun more session => (.ok (changed || more), session)

def runOnceBy (session : Session Instance World) : Attempt Instance World Bool :=
  tell .runFinished (demandAllBy demand (registry.candidates session.level) session.reset)

def runListBy (names : List String) (session : Session Instance World) :
    Attempt Instance World Bool :=
  match registry.resolveNames names with
  | .error error => (.error error, session)
  | .ok ids =>
      tell (fun level => .listFinished level names.length) (demandAllBy demand ids session.reset)

def runListToFixedPointBy (names : List String) (cap : Nat) (session : Session Instance World) :
    Attempt Instance World FixedPoint :=
  match registry.resolveNames names with
  | .error error => (.error error, session)
  | .ok _ => repeatRun (runListBy registry demand names) 0 cap session

/-- Meets a request whose demands are met in the given way. -/
def performBy (session : Session Instance World) : Request → Attempt Instance World Answer
  | .demandNamed name => answering .changed (demandNamedBy registry demand session name)
  | .demand id => answering .changed (demand session id)
  | .runOnce => answering .changed (runOnceBy registry demand session)
  | .runList names => answering .changed (runListBy registry demand names session)
  | .runToFixedPoint cap =>
      answering .fixedPoint (repeatRun (runOnceBy registry demand) 0 cap session)
  | .runListToFixedPoint names cap =>
      answering .fixedPoint (runListToFixedPointBy registry demand names cap session)
  | .setLevel level => (.ok (.level level), session.setLevel level)
  | .reset => (.ok .done, session.reset)
  | .takeTrace => (.ok (.trace session.trace), session.clearTrace)

/-- What a session becomes when requests are met one after the other, failed ones included. -/
def performAllBy (session : Session Instance World) (requests : List Request) :
    Session Instance World :=
  requests.foldl (fun session request => (performBy registry demand session request).2) session

end Requests

section Own

variable [Pass Instance World] (registry : Registry Instance)

theorem demandAllBy_demand (ids : List PassId) (session : Session Instance World) :
    demandAllBy (demand registry) ids session = demandAll registry ids session := by
  induction ids generalizing session with
  | nil => rfl
  | cons id rest inductionHypothesis =>
      simp only [demandAllBy, demandAll_cons, inductionHypothesis]

theorem runOnceBy_demand (session : Session Instance World) :
    runOnceBy registry (demand registry) session = session.runOnce registry := by
  rw [runOnceBy, demandAllBy_demand, runOnce_eq_tell]

theorem runListBy_demand (names : List String) (session : Session Instance World) :
    runListBy registry (demand registry) names session = session.runList registry names := by
  cases resolved : registry.resolveNames names with
  | error error => simp only [runListBy, runList, resolved]
  | ok ids => simp only [runListBy, runList_eq_tell resolved, resolved, demandAllBy_demand]

/-- The requests of a session are those over its own demands. -/
theorem performBy_demand (session : Session Instance World) (request : Request) :
    performBy registry (demand registry) session request = session.perform registry request := by
  cases request with
  | runOnce => simp only [performBy, perform, runOnceBy_demand]
  | runList names => simp only [performBy, perform, runListBy_demand]
  | runToFixedPoint cap =>
      have sameRun : runOnceBy registry (demand registry) =
          fun session : Session Instance World => session.runOnce registry :=
        funext (runOnceBy_demand registry)
      simp only [performBy, perform, runToFixedPoint, sameRun]
  | runListToFixedPoint names cap =>
      have sameRun : runListBy registry (demand registry) names =
          fun session : Session Instance World => session.runList registry names :=
        funext (runListBy_demand registry names)
      cases resolved : registry.resolveNames names with
      | error error =>
          simp only [performBy, perform, runListToFixedPointBy, runListToFixedPoint, resolved]
      | ok ids =>
          simp only [performBy, perform, runListToFixedPointBy, runListToFixedPoint, resolved,
            sameRun]
  | _ => rfl

theorem performAllBy_demand (session : Session Instance World) (requests : List Request) :
    performAllBy registry (demand registry) session requests =
      session.performAll registry requests := by
  simp only [performAllBy, performAll, performBy_demand]

end Own

/-! ## Simulations -/

/-- Two attempts with the same result that leave related sessions. -/
structure Alike {α : Type} (related : Session Instance World → Session Instance World → Prop)
    (attempt other : Attempt Instance World α) : Prop where
  result : attempt.1 = other.1
  after : related attempt.2 other.2

/-- Demands for the same pass are met alike from related sessions, which stay so when something is
told. The two ways of meeting demands may have different numbers for a pass. -/
structure Parallels (same : PassId → PassId → Prop)
    (related : Session Instance World → Session Instance World → Prop)
    (demand demandOther : Demanding Instance World) : Prop where
  level : ∀ {session other}, related session other → session.level = other.level
  demand : ∀ {session other id otherId}, related session other → same id otherId →
    Alike related (demand session id) (demandOther other otherId)
  told : ∀ {session other} {notice : Notice}, notice.event? = none → related session other →
    related (session.notice notice) (other.notice notice)

/-- Whatever else a request does keeps sessions related as well. -/
structure Simulates (same : PassId → PassId → Prop)
    (related : Session Instance World → Session Instance World → Prop)
    (demand demandOther : Demanding Instance World) : Prop
    extends Parallels same related demand demandOther where
  reset : ∀ {session other}, related session other → related session.reset other.reset
  setLevel : ∀ {session other} level, related session other →
    related (session.setLevel level) (other.setLevel level)
  clearTrace : ∀ {session other}, related session other →
    related session.clearTrace other.clearTrace

/-- A name stands for the same pass in two registries, or for none in either. -/
def Agrees (same : PassId → PassId → Prop) (registry other : Registry Instance) : Prop :=
  ∀ name, Option.Rel same (registry.id? name) (other.id? name)

theorem Agrees.resolveNames {same : PassId → PassId → Prop} {registry other : Registry Instance}
    (agrees : Agrees same registry other) (names : List String) :
    (∃ error, registry.resolveNames names = .error error ∧
        other.resolveNames names = .error error) ∨
      ∃ ids otherIds, registry.resolveNames names = .ok ids ∧
        other.resolveNames names = .ok otherIds ∧ List.Forall₂ same ids otherIds := by
  induction names with
  | nil => exact .inr ⟨[], [], rfl, rfl, .nil⟩
  | cons name rest inductionHypothesis =>
      have found := agrees name
      unfold Registry.resolveNames
      generalize registry.id? name = id? at found
      generalize other.id? name = otherId? at found
      cases found with
      | none => exact .inl ⟨.unknownPass name, rfl, rfl⟩
      | some isSame =>
          rcases inductionHypothesis with ⟨error, failed, failedOther⟩ |
            ⟨ids, otherIds, resolved, resolvedOther, each⟩
          · exact .inl ⟨error, by simp only [failed, Except.map], by
              simp only [failedOther, Except.map]⟩
          · exact .inr ⟨_, _, by simp only [resolved, Except.map], by
              simp only [resolvedOther, Except.map], .cons isSame each⟩

namespace Alike

variable {α β : Type} {related : Session Instance World → Session Instance World → Prop}
variable {attempt other : Attempt Instance World α}

theorem answering (alike : Alike related attempt other) (wrap : α → Answer) :
    Alike related (Session.answering wrap attempt) (Session.answering wrap other) :=
  ⟨congrArg (Except.map wrap) alike.result, alike.after⟩

/-- What follows attempts alike is alike, if it is so from related sessions. -/
theorem andThen (alike : Alike related attempt other)
    {next otherNext : α → Session Instance World → Attempt Instance World β}
    (nextAlike : ∀ answer {session other}, related session other →
      Alike related (next answer session) (otherNext answer other)) :
    Alike related (Session.andThen attempt next) (Session.andThen other otherNext) := by
  obtain ⟨result, after⟩ := attempt
  obtain ⟨otherResult, otherAfter⟩ := other
  obtain ⟨rfl, isRelated⟩ := alike
  cases result with
  | error error => exact ⟨rfl, isRelated⟩
  | ok answer => exact nextAlike answer isRelated

end Alike

namespace Parallels

variable {same : PassId → PassId → Prop}
variable {related : Session Instance World → Session Instance World → Prop}
variable {demand demandOther : Demanding Instance World}
variable {session other : Session Instance World}

theorem demandAll (parallels : Parallels same related demand demandOther)
    {ids otherIds : List PassId} (each : List.Forall₂ same ids otherIds)
    (isRelated : related session other) :
    Alike related (demandAllBy demand ids session) (demandAllBy demandOther otherIds other) := by
  induction each generalizing session other with
  | nil => exact ⟨rfl, isRelated⟩
  | cons isSame _ inductionHypothesis =>
      refine (parallels.demand isRelated isSame).andThen fun changed _ _ relatedBetween => ?_
      refine (inductionHypothesis relatedBetween).andThen fun more _ _ relatedAfter => ?_
      exact ⟨rfl, relatedAfter⟩

theorem tell (parallels : Parallels same related demand demandOther)
    {attempt otherAttempt : Attempt Instance World Bool}
    (alike : Alike related attempt otherAttempt) {summary : Level → Bool → Notice}
    (silent : ∀ level changed, (summary level changed).event? = none) :
    Alike related (Session.tell summary attempt) (Session.tell summary otherAttempt) := by
  rw [tell_eq_andThen, tell_eq_andThen]
  refine alike.andThen fun changed _ _ isRelated => ?_
  rw [parallels.level isRelated]
  exact ⟨rfl, parallels.told (silent _ _) isRelated⟩

end Parallels

/-- Repetitions of runs that are alike are so themselves. -/
theorem repeatRun_alike {related : Session Instance World → Session Instance World → Prop}
    {run runOther : Session Instance World → Attempt Instance World Bool}
    (told : ∀ {session other} {notice : Notice}, notice.event? = none → related session other →
      related (session.notice notice) (other.notice notice))
    (alike : ∀ {session other}, related session other →
      Alike related (run session) (runOther other))
    {session other : Session Instance World} (isRelated : related session other)
    (made remaining : Nat) :
    Alike related (repeatRun run made remaining session)
      (repeatRun runOther made remaining other) := by
  induction remaining generalizing made session other with
  | zero => exact ⟨rfl, told rfl isRelated⟩
  | succ remaining inductionHypothesis =>
      rw [repeatRun_succ, repeatRun_succ]
      refine (alike isRelated).andThen fun changed _ _ relatedBetween => ?_
      cases changed with
      | false => exact ⟨rfl, told rfl relatedBetween⟩
      | true => exact inductionHypothesis relatedBetween (made + 1)

namespace Simulates

variable {same : PassId → PassId → Prop}
variable {related : Session Instance World → Session Instance World → Prop}
variable {demand demandOther : Demanding Instance World}
variable {session other : Session Instance World}

/-! ## Requests by name -/

section Named

variable {registry otherRegistry : Registry Instance}

theorem runList (simulates : Simulates same related demand demandOther)
    (agrees : Agrees same registry otherRegistry) (names : List String)
    (isRelated : related session other) :
    Alike related (runListBy registry demand names session)
      (runListBy otherRegistry demandOther names other) := by
  unfold runListBy
  rcases agrees.resolveNames names with ⟨error, failed, failedOther⟩ |
    ⟨ids, otherIds, resolved, resolvedOther, each⟩
  · rw [failed, failedOther]
    exact ⟨rfl, isRelated⟩
  · rw [resolved, resolvedOther]
    exact simulates.tell (simulates.demandAll each (simulates.reset isRelated)) fun _ _ => rfl

theorem runListToFixedPoint (simulates : Simulates same related demand demandOther)
    (agrees : Agrees same registry otherRegistry) (names : List String) (cap : Nat)
    (isRelated : related session other) :
    Alike related (runListToFixedPointBy registry demand names cap session)
      (runListToFixedPointBy otherRegistry demandOther names cap other) := by
  unfold runListToFixedPointBy
  rcases agrees.resolveNames names with ⟨error, failed, failedOther⟩ |
    ⟨ids, otherIds, resolved, resolvedOther, _⟩
  · rw [failed, failedOther]
    exact ⟨rfl, isRelated⟩
  · rw [resolved, resolvedOther]
    exact repeatRun_alike simulates.told (simulates.runList agrees names) isRelated 0 cap

theorem demandNamed (simulates : Simulates same related demand demandOther)
    (agrees : Agrees same registry otherRegistry) (name : String)
    (isRelated : related session other) :
    Alike related (demandNamedBy registry demand session name)
      (demandNamedBy otherRegistry demandOther other name) := by
  have found := agrees name
  unfold demandNamedBy
  generalize registry.id? name = id? at found
  generalize otherRegistry.id? name = otherId? at found
  cases found with
  | none => exact ⟨rfl, isRelated⟩
  | some isSame => exact simulates.demand isRelated isSame

/-- Requests by name are answered alike. -/
theorem performNamed (simulates : Simulates same related demand demandOther)
    (agrees : Agrees same registry otherRegistry) {request : Request} (byName : request.ByName)
    (isRelated : related session other) :
    Alike related (performBy registry demand session request)
      (performBy otherRegistry demandOther other request) := by
  cases request with
  | demandNamed name => exact (simulates.demandNamed agrees name isRelated).answering .changed
  | runList names => exact (simulates.runList agrees names isRelated).answering .changed
  | runListToFixedPoint names cap =>
      exact (simulates.runListToFixedPoint agrees names cap isRelated).answering .fixedPoint
  | setLevel level => exact ⟨rfl, simulates.setLevel level isRelated⟩
  | reset => exact ⟨rfl, simulates.reset isRelated⟩
  | demand | runOnce | runToFixedPoint | takeTrace => cases byName

theorem performAllNamed (simulates : Simulates same related demand demandOther)
    (agrees : Agrees same registry otherRegistry) {requests : List Request}
    (byName : ∀ request ∈ requests, request.ByName) (isRelated : related session other) :
    related (performAllBy registry demand session requests)
      (performAllBy otherRegistry demandOther other requests) :=
  List.foldl_rel isRelated fun request member _ _ isRelated =>
    (simulates.performNamed agrees (byName request member) isRelated).after

end Named

/-! ## Requests to schedulers with one registry -/

section Numbered

variable (registry : Registry Instance)

theorem runOnce (simulates : Simulates Eq related demand demandOther)
    (isRelated : related session other) :
    Alike related (runOnceBy registry demand session) (runOnceBy registry demandOther other) := by
  have sameIds : List.Forall₂ Eq (registry.candidates session.level)
      (registry.candidates other.level) := by
    rw [simulates.level isRelated]
    exact List.forall₂_refl _
  exact simulates.tell (simulates.demandAll sameIds (simulates.reset isRelated)) fun _ _ => rfl

theorem agrees_eq : Agrees Eq registry registry := by
  intro name
  cases registry.id? name with
  | none => exact .none
  | some id => exact .some rfl

/-- All requests but that for the trace are answered alike. -/
theorem perform (simulates : Simulates Eq related demand demandOther) (request : Request)
    (isRelated : related session other) :
    (request ≠ .takeTrace → (performBy registry demand session request).1 =
        (performBy registry demandOther other request).1) ∧
      related (performBy registry demand session request).2
        (performBy registry demandOther other request).2 := by
  have of_alike : ∀ {attempt otherAttempt : Attempt Instance World Answer},
      Alike related attempt otherAttempt →
        (request ≠ .takeTrace → attempt.1 = otherAttempt.1) ∧ related attempt.2 otherAttempt.2 :=
    fun alike => ⟨fun _ => alike.result, alike.after⟩
  cases request with
  | demand id => exact of_alike ((simulates.demand isRelated rfl).answering .changed)
  | runOnce => exact of_alike ((simulates.runOnce registry isRelated).answering .changed)
  | runToFixedPoint cap =>
      have repeated := repeatRun_alike simulates.told (simulates.runOnce registry) isRelated 0 cap
      exact of_alike (repeated.answering .fixedPoint)
  | takeTrace => exact ⟨fun other => absurd rfl other, simulates.clearTrace isRelated⟩
  | demandNamed | runList | runListToFixedPoint | setLevel | reset =>
      exact of_alike (simulates.performNamed (agrees_eq registry) trivial isRelated)

theorem performAll (simulates : Simulates Eq related demand demandOther) (requests : List Request)
    (isRelated : related session other) :
    related (performAllBy registry demand session requests)
      (performAllBy registry demandOther other requests) :=
  List.foldl_rel isRelated fun request _ _ _ isRelated =>
    (simulates.perform registry request isRelated).2

end Numbered

end Simulates

end Session

end PassScheduler
