import PassScheduler.Proofs.Schedule.Lockstep
import PassScheduler.Proofs.Standard.FixedPoint
import PassScheduler.Proofs.Standard.Outcome
import PassScheduler.Proofs.Standard.Trust

/-!
Contract: a run over the standard passes depends on the level and the functions alone.

A run begins with a reset, after which nothing is valid in a session whatever was done in it before.
From there on two sessions at one level and over the same functions make the same decisions. Results
of analyses are read only where an analysis is valid, and then both sessions have the true ones.

Owns:
- sessions to whose traces the same was added since some point, and that what follows a run of a
  pass adds the same to both if the same is valid;
- sessions abreast, in which the same is valid, and that demands of them go in lockstep;
- sessions alongside, in which anything may be valid, and that runs are answered alike, record the
  same and leave the same functions.

Does not own: requests that trust what is valid.
-/

namespace PassScheduler

/-- The requests that run passes anew. -/
def Request.IsRun : Request → Prop
  | .runOnce | .runList _ | .runToFixedPoint _ | .runListToFixedPoint _ _ => True
  | .demandNamed _ | .demand _ | .setLevel _ | .reset | .takeTrace => False

namespace Session

/-! ## Records -/

section Records

variable {Instance World : Type} {front otherFront : List Event}
variable {session other after otherAfter : Session Instance World}

/-- The same was added to the traces of two sessions since they had been some events. -/
def RecordAlike (front otherFront : List Event) (session other : Session Instance World) : Prop :=
  ∃ events, session.trace.toList = front ++ events ∧ other.trace.toList = otherFront ++ events

theorem RecordAlike.extend (alike : RecordAlike front otherFront session other)
    (more : List Event) (recorded : after.trace.toList = session.trace.toList ++ more)
    (otherRecorded : otherAfter.trace.toList = other.trace.toList ++ more) :
    RecordAlike front otherFront after otherAfter := by
  obtain ⟨events, isSession, isOther⟩ := alike
  refine ⟨events ++ more, ?_, ?_⟩
  · rw [recorded, isSession, List.append_assoc]
  · rw [otherRecorded, isOther, List.append_assoc]

theorem validity_foldl_invalidate (registry : Registry Instance) (session : Session Instance World)
    (ids : List PassId) :
    (ids.foldl (invalidate registry) session).validity =
      ids.foldl ValiditySet.invalidate session.validity :=
  (List.foldl_hom Session.validity fun session id =>
    (invalidate_validity registry session id).symm).symm

theorem trace_invalidate (registry : Registry Instance) (session : Session Instance World)
    (id : PassId) :
    (session.invalidate registry id).trace.toList =
      session.trace.toList ++
        if session.validity.isValid id then [⟨registry.name id, .invalidated⟩] else [] := by
  unfold invalidate isValid
  split <;> simp [record, notice, note]

/-- What invalidations record depends on what is valid alone. -/
theorem trace_foldl_invalidate_alike (registry : Registry Instance) (ids : List PassId)
    (same : session.validity = other.validity) :
    ∃ told, (ids.foldl (invalidate registry) session).trace.toList =
        session.trace.toList ++ told ∧
      (ids.foldl (invalidate registry) other).trace.toList = other.trace.toList ++ told := by
  induction ids generalizing session other with
  | nil => exact ⟨[], by simp, by simp⟩
  | cons id ids inductionHypothesis =>
      have sameNext : (session.invalidate registry id).validity =
          (other.invalidate registry id).validity := by
        rw [invalidate_validity, invalidate_validity, same]
      obtain ⟨told, recorded, otherRecorded⟩ := inductionHypothesis sameNext
      rw [trace_invalidate, List.append_assoc] at recorded otherRecorded
      rw [← same] at otherRecorded
      exact ⟨_, recorded, otherRecorded⟩

/-- What follows a run is the same if the same is valid, and it is nothing to the world. -/
theorem conclude_alike (registry : Registry Instance) (id : PassId) (kind : PassKind)
    (pass : String) (changed : Bool) (same : session.validity = other.validity)
    (alike : RecordAlike front otherFront session other) :
    let concluded := (session.recordRan pass changed).conclude registry id kind
    let otherConcluded := (other.recordRan pass changed).conclude registry id kind
    concluded.validity = otherConcluded.validity ∧
      RecordAlike front otherFront concluded otherConcluded ∧
      concluded.world = session.world ∧ otherConcluded.world = other.world := by
  intro concluded otherConcluded
  have sameNoted : (session.recordRan pass changed).validity =
      (other.recordRan pass changed).validity := same
  have noted : RecordAlike front otherFront (session.recordRan pass changed)
      (other.recordRan pass changed) :=
    alike.extend [⟨pass, .ran changed⟩] (Trace.toList_record ..) (Trace.toList_record ..)
  obtain ⟨told, recorded, otherRecorded⟩ :=
    trace_foldl_invalidate_alike registry (registry.stale id) sameNoted
  have validity : concluded.validity = otherConcluded.validity := by
    simp only [concluded, otherConcluded, conclude, validity_foldl_invalidate, sameNoted]
  exact ⟨validity, noted.extend told recorded otherRecorded,
    ((session.recordRan pass changed).conclude_frame registry id kind).2.2,
    ((other.recordRan pass changed).conclude_frame registry id kind).2.2⟩

end Records

end Session

namespace StandardPass

variable {front otherFront : List Event} {session other : Session StandardPass Program}

/-! ## Sessions abreast -/

/-- Two vouched sessions at the same level and over the same functions in which the same is valid,
and to whose traces the same was added. -/
structure Abreast (front otherFront : List Event) (session other : Session StandardPass Program) :
    Prop where
  vouched : Vouched session
  vouchedOther : Vouched other
  level : session.level = other.level
  validity : session.validity = other.validity
  functions : session.world.functions = other.world.functions
  recorded : Session.RecordAlike front otherFront session other

/-- A pass that finds true live values does the same to the same functions. -/
theorem apply_congr {runner : StandardPass} {program otherProgram : Program}
    (functions : program.functions = otherProgram.functions) (live : FindsLive runner program)
    (liveOther : FindsLive runner otherProgram) :
    (runner.apply program).1 = (runner.apply otherProgram).1 ∧
      (runner.apply program).2.functions = (runner.apply otherProgram).2.functions := by
  cases runner with
  | verify =>
      show (runVerify program).1 = (runVerify otherProgram).1 ∧
        (runVerify program).2.functions = (runVerify otherProgram).2.functions
      unfold runVerify
      rw [functions]
      split <;> exact ⟨rfl, rfl⟩
  | liveness => exact ⟨rfl, functions⟩
  | deadCodeElim =>
      show (runDeadCodeElim program).1 = (runDeadCodeElim otherProgram).1 ∧
        (runDeadCodeElim program).2.functions = (runDeadCodeElim otherProgram).2.functions
      unfold runDeadCodeElim
      rw [live rfl, liveOther rfl]
      simp only [runTransform, functions, and_self]
  | _ => simp only [apply, runTransform, functions, and_self]

namespace Abreast

theorem isValid_eq (abreast : Abreast front otherFront session other) (id : PassId) :
    session.isValid id = other.isValid id := by
  rw [Session.isValid, Session.isValid, abreast.validity]

/-- A step that both take keeps them abreast, if it records the same in both. -/
theorem stepped {after otherAfter : Session StandardPass Program}
    (abreast : Abreast front otherFront session other)
    (stepped : Session.Step standard session after)
    (otherStepped : Session.Step standard other otherAfter)
    (level : after.level = otherAfter.level) (validity : after.validity = otherAfter.validity)
    (functions : after.world.functions = otherAfter.world.functions) (more : List Event)
    (recorded : after.trace.toList = session.trace.toList ++ more)
    (otherRecorded : otherAfter.trace.toList = other.trace.toList ++ more) :
    Abreast front otherFront after otherAfter where
  vouched := abreast.vouched.stepped stepped
  vouchedOther := abreast.vouchedOther.stepped otherStepped
  level := level
  validity := validity
  functions := functions
  recorded := abreast.recorded.extend more recorded otherRecorded

/-- Runs of a pass whose prerequisites are valid come to the same. -/
theorem runPass (abreast : Abreast front otherFront session other) {id : PassId}
    {pass : ResolvedPass StandardPass} (found : standard.pass? id = some pass)
    (fresh : ∀ required, standard.Requires id required → standard.isAnalysis required →
      session.isValid required) :
    (session.runPass id pass).1 = (other.runPass id pass).1 ∧
      (session.runPass id pass).2.world.functions =
        (other.runPass id pass).2.world.functions := by
  have freshOther : ∀ required, standard.Requires id required → standard.isAnalysis required →
      other.isValid required := by
    intro required isRequired isAnalysis
    rw [← abreast.isValid_eq]
    exact fresh required isRequired isAnalysis
  obtain ⟨runner, isPass, ran, _⟩ :=
    runPass_eq abreast.vouched.tracked.bound found (Prod.eta (session.runPass id pass)).symm
  obtain ⟨otherRunner, isSame, ranOther, _⟩ :=
    runPass_eq abreast.vouchedOther.tracked.bound found (Prod.eta (other.runPass id pass)).symm
  obtain rfl : runner = otherRunner := Option.some.inj (isPass.symm.trans isSame)
  have same := apply_congr abreast.functions (abreast.vouched.findsLive isPass fresh)
    (abreast.vouchedOther.findsLive isPass freshOther)
  rw [ran, ranOther] at same
  exact same

theorem execute (abreast : Abreast front otherFront session other) (id : PassId) :
    Session.Alike (Abreast front otherFront) (session.execute standard id)
      (other.execute standard id) := by
  have executed := Session.executed standard session id
  have otherExecuted := Session.executed standard other id
  have vouched := abreast.vouched.executed executed
  have vouchedOther := abreast.vouchedOther.executed otherExecuted
  have level : (session.execute standard id).2.level = (other.execute standard id).2.level := by
    rw [executed.level, otherExecuted.level, abreast.level]
  cases found : standard.pass? id with
  | none =>
      unfold Session.execute
      simp only [found]
      exact ⟨rfl, abreast⟩
  | some pass =>
      -- Both refuse for the same stale analysis, or neither does.
      have sameCheck : (pass.requirements.find? fun required =>
          standard.isAnalysis required && !other.isValid required) =
            pass.requirements.find? fun required =>
              standard.isAnalysis required && !session.isValid required := by
        simp only [abreast.isValid_eq]
      cases checked : pass.requirements.find? fun required =>
          standard.isAnalysis required && !session.isValid required with
      | some stale =>
          unfold Session.execute
          simp only [found, sameCheck, checked]
          exact ⟨rfl, abreast⟩
      | none =>
          have same := abreast.runPass found (Session.fresh_of_checked found checked)
          rw [Session.execute_eq_runPass session found checked] at vouched level ⊢
          rw [Session.execute_eq_runPass other found (sameCheck.trans checked)]
            at vouchedOther level ⊢
          rcases ran : session.runPass id pass with ⟨result, after⟩
          rcases ranOther : other.runPass id pass with ⟨otherResult, otherAfter⟩
          simp only [ran, ranOther] at same vouched vouchedOther level ⊢
          obtain ⟨rfl, functions⟩ := same
          have validity : after.validity = otherAfter.validity := by
            rw [(Session.runPass_frame ran).2, (Session.runPass_frame ranOther).2, abreast.validity]
          have recorded : Session.RecordAlike front otherFront after otherAfter := by
            rw [Session.RecordAlike, Session.runPass_trace ran, Session.runPass_trace ranOther]
            exact abreast.recorded
          cases result with
          | error cause => exact ⟨rfl, vouched, vouchedOther, level, validity, functions, recorded⟩
          | ok changed =>
              obtain ⟨concluded, allRecorded, world, otherWorld⟩ :=
                Session.conclude_alike standard id pass.descriptor.kind pass.descriptor.name changed
                  validity recorded
              refine ⟨rfl, vouched, vouchedOther, level, concluded, ?_, allRecorded⟩
              rw [world, otherWorld]
              exact functions

end Abreast

/-- The standard passes are demanded in lockstep by sessions abreast. -/
theorem lockstep_abreast (front otherFront : List Event) :
    Session.Lockstep Eq standard standard (Abreast front otherFront) where
  descriptor?_eq := by
    rintro _ _ rfl
    rfl
  unknown same _ := same
  name_eq := by
    rintro _ _ rfl
    rfl
  requirements := by
    rintro _ _ rfl
    exact List.forall₂_refl _
  injective := by
    rintro _ _ _ _ rfl rfl
    rfl
  level abreast := abreast.level
  isValid_eq := by
    rintro _ _ _ _ abreast rfl
    exact abreast.isValid_eq _
  demanded pass abreast :=
    abreast.stepped (.demanded _ pass) (.demanded _ pass) abreast.level abreast.validity
      abreast.functions [] (List.append_nil _).symm (List.append_nil _).symm
  told silent abreast :=
    abreast.stepped (.told _ silent) (.told _ silent) abreast.level abreast.validity
      abreast.functions [] (List.append_nil _).symm (List.append_nil _).symm
  skipped descriptor abreast :=
    abreast.stepped (.skipped _ descriptor) (.skipped _ descriptor) abreast.level abreast.validity
      abreast.functions [⟨descriptor.name, .skipped⟩] (Trace.toList_record ..)
      (Trace.toList_record ..)
  cached := by
    rintro _ _ id _ abreast rfl valid
    have otherValid := (abreast.isValid_eq id).symm.trans valid
    exact abreast.stepped (.cached valid) (.cached otherValid) abreast.level abreast.validity
      abreast.functions [⟨standard.name id, .cached⟩] (Trace.toList_record ..)
      (Trace.toList_record ..)
  execute := by
    rintro _ _ id _ abreast rfl
    exact abreast.execute id

/-! ## Runs -/

/-- Two sessions at the same level and over the same functions, to whose traces the same was added.
What is valid may differ, and so may the results of analyses that the programs hold. -/
structure Alongside (front otherFront : List Event) (session other : Session StandardPass Program) :
    Prop where
  formed : Formed session
  formedOther : Formed other
  level : session.level = other.level
  functions : session.world.functions = other.world.functions
  recorded : Session.RecordAlike front otherFront session other

theorem Abreast.alongside (abreast : Abreast front otherFront session other) :
    Alongside front otherFront session other where
  formed := ⟨abreast.vouched.tracked.fits, abreast.vouched.tracked.bound⟩
  formedOther := ⟨abreast.vouchedOther.tracked.fits, abreast.vouchedOther.tracked.bound⟩
  level := abreast.level
  functions := abreast.functions
  recorded := abreast.recorded

namespace Alongside

/-- A reset brings sessions abreast. -/
theorem reset (alongside : Alongside front otherFront session other) :
    Abreast front otherFront session.reset other.reset where
  vouched := alongside.formed.vouched_reset
  vouchedOther := alongside.formedOther.vouched_reset
  level := alongside.level
  -- Nothing is valid in either, and both have one state for each pass of the registry.
  validity :=
    congrArg ValiditySet.fresh (alongside.formed.fits.trans alongside.formedOther.fits.symm)
  functions := alongside.functions
  recorded := alongside.recorded

theorem told {notice : Notice} (silent : notice.event? = none)
    (alongside : Alongside front otherFront session other) :
    Alongside front otherFront (session.notice notice) (other.notice notice) :=
  ⟨alongside.formed.stepped (.told _ silent), alongside.formedOther.stepped (.told _ silent),
    alongside.level, alongside.functions, alongside.recorded⟩

/-- Runs of the same passes are alike. -/
theorem run (alongside : Alongside front otherFront session other) (ids : List PassId)
    {summary : Level → Bool → Notice}
    (silent : ∀ level changed, (summary level changed).event? = none) :
    Session.Alike (Alongside front otherFront)
      (Session.tell summary (Session.demandAll standard ids session.reset))
      (Session.tell summary (Session.demandAll standard ids other.reset)) := by
  have parallels := (lockstep_abreast front otherFront).parallels
  have alike := parallels.tell (parallels.demandAll (List.forall₂_refl ids) alongside.reset) silent
  rw [Session.demandAllBy_demand, Session.demandAllBy_demand] at alike
  exact ⟨alike.result, alike.after.alongside⟩

theorem runOnce (alongside : Alongside front otherFront session other) :
    Session.Alike (Alongside front otherFront) (session.runOnce standard)
      (other.runOnce standard) := by
  rw [Session.runOnce_eq_tell, Session.runOnce_eq_tell, alongside.level]
  exact alongside.run _ fun _ _ => rfl

theorem runList (alongside : Alongside front otherFront session other) (names : List String) :
    Session.Alike (Alongside front otherFront) (session.runList standard names)
      (other.runList standard names) := by
  cases resolved : standard.resolveNames names with
  | error error =>
      unfold Session.runList
      rw [resolved]
      exact ⟨rfl, alongside⟩
  | ok ids =>
      rw [Session.runList_eq_tell resolved, Session.runList_eq_tell resolved]
      exact alongside.run ids fun _ _ => rfl

theorem runToFixedPoint (alongside : Alongside front otherFront session other) (cap : Nat) :
    Session.Alike (Alongside front otherFront) (session.runToFixedPoint standard cap)
      (other.runToFixedPoint standard cap) :=
  Session.repeatRun_alike told runOnce alongside 0 cap

theorem runListToFixedPoint (alongside : Alongside front otherFront session other)
    (names : List String) (cap : Nat) :
    Session.Alike (Alongside front otherFront) (session.runListToFixedPoint standard names cap)
      (other.runListToFixedPoint standard names cap) := by
  unfold Session.runListToFixedPoint
  cases standard.resolveNames names with
  | error error => exact ⟨rfl, alongside⟩
  | ok ids =>
      exact Session.repeatRun_alike told (fun alongside => alongside.runList names) alongside 0 cap

theorem perform (alongside : Alongside front otherFront session other) {request : Request}
    (isRun : request.IsRun) :
    Session.Alike (Alongside front otherFront) (session.perform standard request)
      (other.perform standard request) := by
  cases request with
  | runOnce => exact alongside.runOnce.answering .changed
  | runList names => exact (alongside.runList names).answering .changed
  | runToFixedPoint cap => exact (alongside.runToFixedPoint cap).answering .fixedPoint
  | runListToFixedPoint names cap =>
      exact (alongside.runListToFixedPoint names cap).answering .fixedPoint
  | demandNamed | demand | setLevel | reset | takeTrace => cases isRun

end Alongside

/-- A run over the standard passes depends on the level of the session and on the functions that it
is given. Whatever was asked of two sessions before, and whatever results of analyses their programs
hold, it is answered alike, records the same and leaves the same functions, also when it fails. -/
theorem perform_independent {registry : Registry StandardPass}
    (built : StandardPass.registry = .ok registry)
    (reachable : Session.Reachable registry session)
    (otherReachable : Session.Reachable registry other) (level : session.level = other.level)
    (functions : session.world.functions = other.world.functions) {request : Request}
    (isRun : request.IsRun) :
    (session.perform registry request).1 = (other.perform registry request).1 ∧
      (session.perform registry request).2.world.functions =
        (other.perform registry request).2.world.functions ∧
      ∃ events,
        (session.perform registry request).2.trace.toList = session.trace.toList ++ events ∧
        (other.perform registry request).2.trace.toList = other.trace.toList ++ events := by
  obtain rfl : standard = registry := Except.ok.inj (registry_eq.symm.trans built)
  have alongside : Alongside session.trace.toList other.trace.toList session other :=
    ⟨formed_of_reachable reachable, formed_of_reachable otherReachable, level, functions,
      [], (List.append_nil _).symm, (List.append_nil _).symm⟩
  have alike := alongside.perform isRun
  exact ⟨alike.result, alike.after.functions, alike.after.recorded⟩

/-- A session that is given other functions than those for which `liveness` is valid in it. -/
def reused : Session StandardPass Program :=
  ((Session.start standard 2 (Program.ofFunctions [undecided])).perform standard
    (.demandNamed "liveness")).2.handed (Program.ofFunctions misjudged.functions)

/-- A new session is given the same functions with false live values. -/
theorem perform_independent_reused :
    let session := Session.start standard 2 misjudged
    let first := session.perform standard (.runToFixedPoint 20)
    let second := reused.perform standard (.runToFixedPoint 20)
    registry = .ok standard ∧ Session.Reachable standard session ∧
      Session.Reachable standard reused ∧ session.level = reused.level ∧
      session.world.functions = reused.world.functions ∧
      (Request.runToFixedPoint 20).IsRun ∧
      session.world.liveSets? ≠ reused.world.liveSets? ∧
      session.isValid livenessId = false ∧ reused.isValid livenessId = true ∧
      first.1 = .ok (.fixedPoint ⟨2, true⟩) ∧ second.1 = .ok (.fixedPoint ⟨2, true⟩) ∧
      first.2.trace ≠ second.2.trace ∧
      first.2.world.functions = second.2.world.functions ∧
      ∃ events, first.2.trace.toList = session.trace.toList ++ events ∧
        second.2.trace.toList = reused.trace.toList ++ events := by
  intro session first second
  have reachable : Session.Reachable standard session := .start 2 _
  have otherReachable : Session.Reachable standard reused :=
    .handed (.performed (.start 2 _) (.demandNamed "liveness")) _
  have level : session.level = reused.level := by cbv
  have valid : reused.isValid livenessId = true := by cbv
  have stale : session.world.liveSets? ≠ reused.world.liveSets? := Option.some_ne_none _
  have answered : first.1 = .ok (.fixedPoint ⟨2, true⟩) := by cbv
  have isRun : (Request.runToFixedPoint 20).IsRun := trivial
  obtain ⟨same, functions, events, recorded, otherRecorded⟩ :=
    perform_independent registry_eq reachable otherReachable level rfl isRun
  have distinct : first.2.trace ≠ second.2.trace := by
    intro isSame
    have heard : reused.trace.toList.length = 2 := by cbv
    have lengths := congrArg (fun trace => trace.toList.length) isSame
    simp only [first, second, recorded, otherRecorded, List.length_append, heard] at lengths
    have silent : session.trace.toList.length = 0 := rfl
    omega
  exact ⟨registry_eq, reachable, otherReachable, level, rfl, isRun, stale, rfl, valid, answered,
    same.symm.trans answered, distinct, functions, events, recorded, otherRecorded⟩

end StandardPass

end PassScheduler
