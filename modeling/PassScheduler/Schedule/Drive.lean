import PassScheduler.Schedule.Demand

/-!
Contract: demands of several passes, once or until nothing changes.

Owns:
- demands by name, of all passes that take part, and of a list of names, each of which answers
  whether any demanded pass changed anything;
- the repetition of such a run up to a cap;
- requests, which name everything that can be asked of a session, and `perform`.

Does not own: how a single demand is met.
-/

namespace PassScheduler

/-- What a repetition came to: how many runs there were, counting a last one without changes,
and whether there was such a run. -/
structure FixedPoint where
  iterations : Nat
  converged : Bool
deriving DecidableEq, Repr

namespace FixedPoint

/-- Whether any run changed anything: every run but a converged last one did. -/
def changed (outcome : FixedPoint) : Bool :=
  outcome.iterations > 1 || (outcome.iterations = 1 && !outcome.converged)

end FixedPoint

namespace Registry

/-- The numbers of the passes of some names, or the first name that no pass has. -/
def resolveNames {Instance : Type} (registry : Registry Instance) :
    List String → Except ScheduleError (List PassId)
  | [] => .ok []
  | name :: rest =>
      match registry.id? name with
      | none => .error (.unknownPass name)
      | some id => (registry.resolveNames rest).map (id :: ·)

end Registry

namespace Session

variable {Instance World : Type} [Pass Instance World]

def demandNamed (registry : Registry Instance) (session : Session Instance World)
    (name : String) : Attempt Instance World Bool :=
  match registry.id? name with
  | none => (.error (.unknownPass name), session)
  | some id => session.demand registry id

/-- Demands passes one after the other, up to the first failure. -/
def demandAll (registry : Registry Instance) :
    List PassId → Session Instance World → Attempt Instance World Bool
  | [], session => (.ok false, session)
  | id :: rest, session =>
      match session.demand registry id with
      | (.error error, session) => (.error error, session)
      | (.ok changed, session) =>
          match demandAll registry rest session with
          | (.error error, session) => (.error error, session)
          | (.ok more, session) => (.ok (changed || more), session)

/-- Demands every pass that takes part at the level, trusting no earlier result. -/
def runOnce (registry : Registry Instance) (session : Session Instance World) :
    Attempt Instance World Bool :=
  match demandAll registry (registry.candidates session.level) session.reset with
  | (.error error, session) => (.error error, session)
  | (.ok changed, session) => (.ok changed, session.notice (.runFinished session.level changed))

/-- Demands the passes of some names in the order given, trusting no earlier result. Nothing is
run unless every name is known. -/
def runList (registry : Registry Instance) (names : List String)
    (session : Session Instance World) : Attempt Instance World Bool :=
  match registry.resolveNames names with
  | .error error => (.error error, session)
  | .ok ids =>
      match demandAll registry ids session.reset with
      | (.error error, session) => (.error error, session)
      | (.ok changed, session) =>
          (.ok changed, session.notice (.listFinished session.level names.length changed))

/-- Repeats a run until it changes nothing, fails, or has been made `remaining` more times. -/
def repeatRun
    (run : Session Instance World → Attempt Instance World Bool)
    (made : Nat) :
    (remaining : Nat) → Session Instance World → Attempt Instance World FixedPoint
  | 0, session => (.ok ⟨made, false⟩, session.notice (.capReached made))
  | remaining + 1, session =>
      match run session with
      | (.error error, session) => (.error error, session)
      | (.ok false, session) =>
          (.ok ⟨made + 1, true⟩, session.notice (.fixedPointReached (made + 1)))
      | (.ok true, session) => repeatRun run (made + 1) remaining session

/-- Repeats `runOnce` at most `cap` times. -/
def runToFixedPoint (registry : Registry Instance) (cap : Nat)
    (session : Session Instance World) : Attempt Instance World FixedPoint :=
  repeatRun (fun session => session.runOnce registry) 0 cap session

/-- Repeats `runList` at most `cap` times. Unknown names fail even if the cap is zero. -/
def runListToFixedPoint (registry : Registry Instance) (names : List String) (cap : Nat)
    (session : Session Instance World) : Attempt Instance World FixedPoint :=
  match registry.resolveNames names with
  | .error error => (.error error, session)
  | .ok _ => repeatRun (runList registry names) 0 cap session

end Session

/-- Something that can be asked of a session. -/
inductive Request where
  | demandNamed (name : String)
  | demand (id : PassId)
  | runOnce
  | runList (names : List String)
  | runToFixedPoint (cap : Nat)
  | runListToFixedPoint (names : List String) (cap : Nat)
  | setLevel (level : Level)
  | reset
  | takeTrace
deriving DecidableEq, Repr

/-- What a request is answered with. -/
inductive Answer where
  | changed (flag : Bool)
  | fixedPoint (outcome : FixedPoint)
  | level (level : Level)
  | done
  | trace (trace : Trace)
deriving DecidableEq, Repr

namespace Session

variable {Instance World : Type} [Pass Instance World]

/-- An attempt with its answer wrapped. -/
def answering {α : Type} (wrap : α → Answer) (attempt : Attempt Instance World α) :
    Attempt Instance World Answer :=
  (attempt.1.map wrap, attempt.2)

/-- Meets a request. -/
def perform (registry : Registry Instance) (session : Session Instance World) :
    Request → Attempt Instance World Answer
  | .demandNamed name => answering .changed (session.demandNamed registry name)
  | .demand id => answering .changed (session.demand registry id)
  | .runOnce => answering .changed (session.runOnce registry)
  | .runList names => answering .changed (session.runList registry names)
  | .runToFixedPoint cap => answering .fixedPoint (session.runToFixedPoint registry cap)
  | .runListToFixedPoint names cap =>
      answering .fixedPoint (session.runListToFixedPoint registry names cap)
  | .setLevel level => (.ok (.level level), session.setLevel level)
  | .reset => (.ok .done, session.reset)
  | .takeTrace => (.ok (.trace session.trace), session.clearTrace)

end Session

end PassScheduler
