import PassScheduler.Proofs.Schedule.Course

/-!
Contract: why a request fails.

Owns: that an error of a request is a name or number that no pass has, a circle or a depth that was
found on a path, or the error of the execution of a pass in a session that the request came to.

Does not own: which of them are possible for which passes.
-/

open Relation (ReflTransGen)

namespace PassScheduler.Session

variable {Instance World : Type} [Pass Instance World] {registry : Registry Instance}

/-- What the errors of a request to a session can be. -/
inductive Cause (registry : Registry Instance) (session : Session Instance World) :
    ScheduleError → Prop where
  | unknown (name : String) : Cause registry session (.unknownPass name)
  | circle (path : List String) : Cause registry session (.requirementCycle path)
  | depth : Cause registry session (.depthExceeded maxDepth)
  | execution {between after : Session Instance World} {id : PassId} {error : ScheduleError}
      (steps : ReflTransGen (Step registry) session between)
      (executed : Executed registry between id (.error error, after)) :
      Cause registry session error

theorem Cause.after_steps {session between : Session Instance World} {error : ScheduleError}
    (steps : ReflTransGen (Step registry) session between) (cause : Cause registry between error) :
    Cause registry session error := by
  cases cause with
  | unknown name => exact .unknown name
  | circle path => exact .circle path
  | depth => exact .depth
  | execution more executed => exact .execution (steps.trans more) executed

theorem Met.cause {path pending : List PassId} {session : Session Instance World}
    {attempt : Attempt Instance World Unit} (met : Met registry path pending session attempt)
    {error : ScheduleError} (failed : attempt.1 = .error error) :
    Cause registry session error := by
  induction met with
  | done => cases failed
  | cached valid _ inductionHypothesis =>
      exact (inductionHypothesis failed).after_steps (.single (.cached valid))
  | circular =>
      cases failed
      exact .circle _
  | tooDeep =>
      cases failed
      exact .depth
  | blocked _ _ _ _ above =>
      cases failed
      exact above rfl
  | failed _ _ _ aboveMet executed =>
      cases failed
      exact .execution aboveMet.steps executed
  | ran _ _ _ aboveMet executed _ _ rest =>
      exact (rest failed).after_steps (aboveMet.steps.tail (.executed executed))

theorem Demanded.cause {session : Session Instance World} {id : PassId}
    {attempt : Attempt Instance World Bool} (demanded : Demanded registry session id attempt)
    {error : ScheduleError} (failed : attempt.1 = .error error) :
    Cause registry session error := by
  cases demanded with
  | unknown =>
      cases failed
      exact .unknown _
  | skipped => cases failed
  | cached => cases failed
  | blocked _ _ _ met =>
      cases failed
      exact (met.cause rfl).after_steps (.single (.demanded session _))
  | @ran _ between attempt _ _ _ met executed =>
      obtain ⟨result, after⟩ := attempt
      cases failed
      exact .execution (.head (.demanded session _) met.steps) executed

theorem cause_of_perform {session : Session Instance World} {request : Request}
    {error : ScheduleError} (failed : (session.perform registry request).1 = .error error) :
    Cause registry session error := by
  cases (follows_perform session request).origin error failed with
  | name name => exact .unknown name
  | @demand before id _ moves failedDemand =>
      exact ((demanded registry before id).cause failedDemand).after_steps (steps_of_moves moves)

end PassScheduler.Session
