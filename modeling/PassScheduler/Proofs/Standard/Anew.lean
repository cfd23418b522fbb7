import PassScheduler.Proofs.Schedule.Simulation
import PassScheduler.Proofs.Standard.Outcome

/-!
Contract: trusting valid analyses makes no difference to what requests come to.

A scheduler that trusts nothing runs whatever a demanded pass requires, and that pass itself, on
every demand. Over the standard passes its demands have the outcomes that they have in a vouched
session.

Owns:
- demands that are met anew;
- that a demand of a standard pass has its outcome if it is met anew;
- that requests over such demands are answered as those of a session, and leave the same functions.

Does not own: how often a pass runs.
-/

open Relation (ReflTransGen)

namespace PassScheduler

namespace Session

/-! ## Demands that are met anew -/

section Anew

variable {Instance World : Type} [Pass Instance World]

/-- Runs a pass, whatever is valid. -/
def executeAnew (registry : Registry Instance) (session : Session Instance World) (id : PassId) :
    Attempt Instance World Bool :=
  match registry.pass? id with
  | none => (.error (.unknownPass (unissuedName id)), session)
  | some pass =>
      match session.runPass id pass with
      | (.error cause, session) => (.error (.passFailed pass.descriptor.name cause), session)
      | (.ok changed, session) => (.ok changed, session.recordRan pass.descriptor.name changed)

/-- Runs some prerequisites of the first pass on a path, in order, and whatever each of them
requires before it, up to the first failure. -/
def meetAnew (registry : Registry Instance) (path : List PassId) :
    (pending : List PassId) → Session Instance World → Attempt Instance World Unit
  | [], session => (.ok (), session)
  | next :: pending, session =>
      if next ∈ path then
        (.error (.requirementCycle
          ((path.reverse.dropWhile (· ≠ next) ++ [next]).map registry.name)), session)
      else if path.length < maxDepth then
        match meetAnew registry (next :: path) (registry.requirements next) session with
        | (.error error, session) => (.error error, session)
        | (.ok (), session) =>
            match executeAnew registry session next with
            | (.error error, session) => (.error error, session)
            | (.ok _, session) => meetAnew registry path pending session
      else
        (.error (.depthExceeded maxDepth), session)
termination_by pending => (maxDepth - path.length, pending.length)
decreasing_by
  · exact .left _ _ (by simp only [List.length_cons]; omega)
  · exact .right _ (by simp)

/-- Runs whatever a pass requires, and then that pass. -/
def meetAndRunAnew (registry : Registry Instance) (session : Session Instance World)
    (path : List PassId) (id : PassId) : Attempt Instance World Bool :=
  match meetAnew registry (id :: path) (registry.requirements id) session with
  | (.error error, session) => (.error error, session)
  | (.ok (), session) => executeAnew registry session id

/-- Demands a pass and trusts nothing. One that takes no part at the level is skipped. -/
def demandAnew (registry : Registry Instance) (session : Session Instance World) (id : PassId) :
    Attempt Instance World Bool :=
  match registry.descriptor? id with
  | none => (.error (.unknownPass (unissuedName id)), session)
  | some descriptor =>
      let session := session.note (.demanded descriptor.name)
      if !descriptor.isEnabledAt session.level then
        (.ok false, session.recordSkipped descriptor)
      else
        meetAndRunAnew registry session [] id

/-- To meet the one prerequisite of a pass is to run it and whatever it requires. -/
theorem meetAnew_single (registry : Registry Instance) {path : List PassId} {next : PassId}
    (offPath : next ∉ path) (shallow : path.length < maxDepth) (session : Session Instance World) :
    meetAnew registry path [next] session =
      ((meetAndRunAnew registry session path next).1.map fun _ => (),
        (meetAndRunAnew registry session path next).2) := by
  rw [meetAnew, if_neg offPath, if_pos shallow, meetAndRunAnew]
  cases meetAnew registry (next :: path) (registry.requirements next) session with
  | mk result between =>
      cases result with
      | error error => rfl
      | ok =>
          dsimp only
          cases executeAnew registry between next with
          | mk result after =>
              cases result with
              | error error => rfl
              | ok changed =>
                  dsimp only
                  rw [meetAnew]
                  rfl

end Anew

end Session

namespace StandardPass

/-! ## Standard passes -/

section Runs

variable {session : Session StandardPass Program} {id : PassId} {runner : StandardPass}

/-- What a pass that is run anew, after whatever it requires, leaves and comes to. -/
structure Renewed (session : Session StandardPass Program) (runner : StandardPass)
    (attempt : Attempt StandardPass Program Bool) : Prop where
  bound : Bound attempt.2
  level : attempt.2.level = session.level
  isAnswer : visible attempt = runner.answer session.world.functions
  live : runner = .liveness → firstViolation? [] session.world.functions = none →
    attempt.2.world.liveSets? = some (.ofFunctions session.world.functions)

/-- A standard pass requires nothing, if it is `verify`, or one analysis. -/
theorem requirements_cases (isPass : all[id]? = some runner) :
    (runner = .verify ∧ standard.requirements id = []) ∨
      ∃ next analysis, standard.requirements id = [next] ∧ next < id ∧
        all[next]? = some analysis ∧ (analysis = .verify ∨ analysis = .liveness) ∧
          (runner = .deadCodeElim → analysis = .liveness) := by
  have inside : id < 6 := (List.getElem?_eq_some_iff.1 isPass).1
  interval_cases id <;> cases isPass
  · exact .inl ⟨rfl, rfl⟩
  · exact .inr ⟨verifyId, .verify, rfl, by decide, rfl, .inl rfl, by simp⟩
  · exact .inr ⟨verifyId, .verify, rfl, by decide, rfl, .inl rfl, by simp⟩
  · exact .inr ⟨verifyId, .verify, rfl, by decide, rfl, .inl rfl, by simp⟩
  · exact .inr ⟨verifyId, .verify, rfl, by decide, rfl, .inl rfl, by simp⟩
  · exact .inr ⟨livenessId, .liveness, rfl, by decide, rfl, .inr rfl, by simp⟩

theorem executeAnew_eq (bound : Bound session) (isPass : all[id]? = some runner) :
    ∃ after, session.executeAnew standard id =
        ((runner.apply session.world).1.mapError (.passFailed runner.name), after) ∧
      Bound after ∧ after.level = session.level ∧
        after.world = (runner.apply session.world).2 := by
  obtain ⟨pass, found, described⟩ : ∃ pass, standard.pass? id = some pass ∧
      pass.descriptor = runner.descriptor := by
    simpa [Registry.descriptor?] using descriptor?_eq isPass
  have named : pass.descriptor.name = runner.name := by
    rw [← Registry.name_of_pass? found, name_eq isPass]
  unfold Session.executeAnew
  simp only [found]
  cases ran : session.runPass id pass with
  | mk result after =>
      obtain ⟨isRunner, isSame, outcome, boundAfter⟩ := runPass_eq bound found ran
      obtain rfl : isRunner = runner := Option.some.inj (isSame.symm.trans isPass)
      have level := (Session.runPass_frame ran).1
      rw [outcome, ← named]
      cases result with
      | error cause => exact ⟨after, rfl, boundAfter, level, rfl⟩
      | ok changed =>
          exact ⟨after.recordRan pass.descriptor.name changed, rfl, boundAfter, level, rfl⟩

/-- A pass that finds true live values, and functions that keep all rules unless it is to find that
out, does what its answer says. -/
theorem renewed_executeAnew (bound : Bound session) (isPass : all[id]? = some runner)
    (vouched : runner = .verify ∨ firstViolation? [] session.world.functions = none)
    (live : FindsLive runner session.world) :
    Renewed session runner (session.executeAnew standard id) := by
  obtain ⟨after, executed, boundAfter, level, world⟩ := executeAnew_eq bound isPass
  rw [executed]
  refine ⟨boundAfter, level, ?_, ?_⟩
  · cases broken : firstViolation? [] session.world.functions with
    | none =>
        obtain ⟨isAnswer, functions⟩ := apply_eq_effect broken live
        rw [answer_of_unbroken broken, visible, world, functions, isAnswer]
        rfl
    | some first =>
        obtain ⟨function, violation⟩ := first
        obtain rfl : runner = .verify := by simpa [broken] using vouched
        have outcome : verify.apply session.world = (.error (.malformed function violation.message),
            { session.world with results := session.world.results.erase .verified }) := by
          show runVerify session.world = _
          unfold runVerify
          rw [broken]
        rw [answer_of_broken broken, visible, world, outcome]
        rfl
  · rintro rfl _
    rw [world]
    exact ResultTable.get?_insert_self _ _ _

/-- A standard pass that is run anew, after whatever it requires, does what its answer says. -/
theorem renewed_meetAndRunAnew (bound : Bound session) (isPass : all[id]? = some runner)
    {path : List PassId} (above : ∀ waiting ∈ path, id < waiting)
    (shallow : path.length + id < maxDepth) :
    Renewed session runner (session.meetAndRunAnew standard path id) := by
  induction id using Nat.strong_induction_on generalizing runner path with
  | _ id inductionHypothesis =>
      rcases requirements_cases isPass with ⟨rfl, none⟩ |
        ⟨next, analysis, one, below, isAnalysis, kind, onlyLive⟩
      · have met : Session.meetAnew standard (id :: path) (standard.requirements id) session =
            (.ok (), session) := by
          rw [none, Session.meetAnew]
        have live : FindsLive .verify session.world := by
          rintro ⟨⟩
        rw [Session.meetAndRunAnew, met]
        exact renewed_executeAnew bound isPass (.inl rfl) live
      · have aboveNext : ∀ waiting ∈ id :: path, next < waiting :=
          List.forall_mem_cons.2 ⟨below, fun waiting member => below.trans (above waiting member)⟩
        have offPath : next ∉ id :: path := fun member => lt_irrefl next (aboveNext next member)
        have room : (id :: path).length + next < maxDepth := by
          have shorter : path.length + next + 1 ≤ path.length + id := Nat.add_le_add_left below _
          rw [List.length_cons, Nat.add_right_comm]
          exact shorter.trans_lt shallow
        have prepared := inductionHypothesis next below isAnalysis aboveNext room
        rw [Session.meetAndRunAnew, one, Session.meetAnew_single standard offPath
          ((Nat.le_add_right _ _).trans_lt room)]
        cases ran : session.meetAndRunAnew standard (id :: path) next with
        | mk result between =>
            rw [ran] at prepared
            obtain ⟨boundBetween, level, isAnswer, live⟩ := prepared
            cases broken : firstViolation? [] session.world.functions with
            | some first =>
                obtain ⟨function, violation⟩ := first
                rw [answer_of_broken broken, visible, Prod.mk.injEq] at isAnswer
                obtain ⟨rfl, functions⟩ := isAnswer
                refine ⟨boundBetween, level, ?_, by simp [broken]⟩
                rw [answer_of_broken broken]
                exact Prod.ext rfl functions
            | none =>
                have idle : analysis.effect session.world.functions = session.world.functions := by
                  rcases kind with rfl | rfl <;> rfl
                rw [answer_of_unbroken broken, idle, visible, Prod.mk.injEq] at isAnswer
                obtain ⟨rfl, functions⟩ := isAnswer
                have findsLive : FindsLive runner between.world := by
                  intro isLast
                  rw [functions]
                  exact live (onlyLive isLast) broken
                have last := renewed_executeAnew boundBetween isPass
                  (.inr (functions ▸ broken)) findsLive
                refine ⟨last.bound, last.level.trans level, ?_, ?_⟩
                · rw [← functions]
                  exact last.isAnswer
                · intro isLiveness _
                  rw [← functions]
                  exact last.live isLiveness (functions ▸ broken)

/-- A demand that is met anew has its outcome. -/
theorem demandAnew_outcome (bound : Bound session) (id : PassId) :
    visible (session.demandAnew standard id) = outcome session.level id session.world.functions ∧
      Bound (session.demandAnew standard id).2 ∧
      (session.demandAnew standard id).2.level = session.level := by
  unfold outcome Session.demandAnew
  cases isPass : all[id]? with
  | none =>
      rw [descriptor?_eq_none isPass]
      exact ⟨rfl, bound, rfl⟩
  | some runner =>
      rw [descriptor?_eq isPass]
      let noted := session.note (.demanded runner.descriptor.name)
      have sameLevel : (session.note (.demanded runner.descriptor.name)).level = session.level :=
        rfl
      by_cases enabled : runner.descriptor.isEnabledAt session.level
      · have inside : id < 6 := (List.getElem?_eq_some_iff.1 isPass).1
        have shallow : ([] : List PassId).length + id < maxDepth := by
          rw [List.length_nil, Nat.zero_add]
          exact inside.trans (by decide)
        have boundNoted : Bound noted := bound
        have renewed := renewed_meetAndRunAnew boundNoted isPass (by simp) shallow
        simp only [sameLevel, enabled, Bool.not_true, Bool.false_eq_true, if_false, if_true]
        exact ⟨renewed.isAnswer, renewed.bound, renewed.level⟩
      · simp only [sameLevel, enabled, Bool.not_false, if_true, Bool.false_eq_true, if_false]
        exact ⟨rfl, bound, rfl⟩

end Runs

/-! ## Requests -/

/-- A vouched session, and one that trusts nothing, at the same level and over the same
functions. -/
structure Matched (session anew : Session StandardPass Program) : Prop where
  vouched : Vouched session
  bound : Bound anew
  level : session.level = anew.level
  functions : session.world.functions = anew.world.functions

theorem Matched.demand {session anew : Session StandardPass Program}
    (matched : Matched session anew) (id : PassId) :
    Session.Alike Matched (session.demand standard id) (anew.demandAnew standard id) := by
  have demanded := Session.demanded standard session id
  obtain ⟨isOutcome, bound, level⟩ := demandAnew_outcome matched.bound id
  have same : visible (session.demand standard id) = visible (anew.demandAnew standard id) := by
    rw [isOutcome, matched.vouched.demand_outcome, matched.level, matched.functions]
  rw [visible, visible, Prod.mk.injEq] at same
  obtain ⟨sameAnswer, functions⟩ := same
  refine ⟨sameAnswer, matched.vouched.steps demanded.steps, bound, ?_, functions⟩
  rw [demanded.level, level, matched.level]

theorem simulates_demandAnew :
    Session.Simulates Eq Matched (Session.demand standard) (Session.demandAnew standard) where
  level matched := matched.level
  demand := by
    rintro session anew id _ matched rfl
    exact matched.demand id
  reset matched :=
    ⟨matched.vouched.stepped (.reset _), matched.bound, matched.level, matched.functions⟩
  setLevel level matched :=
    ⟨matched.vouched.stepped (.setLevel _ level), bound_of_none rfl, rfl, matched.functions⟩
  told silent matched :=
    ⟨matched.vouched.stepped (.told _ silent), matched.bound, matched.level, matched.functions⟩
  clearTrace matched :=
    ⟨matched.vouched.stepped (.clearTrace _), matched.bound, matched.level, matched.functions⟩

/-- Whatever was asked of it before, a session over the standard passes answers a request as a
scheduler does that trusts no valid analysis, and leaves the same functions. Only their traces
differ. -/
theorem perform_eq_anew {registry : Registry StandardPass}
    (built : StandardPass.registry = .ok registry) (level : Level) (program : Program)
    (requests : List Request) (request : Request) :
    let trustsNothing := Session.demandAnew registry
    let start := Session.start registry level program
    let attempt := (start.performAll registry requests).perform registry request
    let anew := Session.performBy registry trustsNothing
      (Session.performAllBy registry trustsNothing start requests) request
    (request ≠ .takeTrace → attempt.1 = anew.1) ∧
      attempt.2.world.functions = anew.2.world.functions := by
  obtain rfl : standard = registry := Except.ok.inj (registry_eq.symm.trans built)
  intro trustsNothing start attempt anew
  have started : Matched start start := ⟨vouched_start level program, bound_of_none rfl, rfl, rfl⟩
  have matched := simulates_demandAnew.performAll standard requests started
  obtain ⟨sameAnswer, after⟩ := simulates_demandAnew.perform standard request matched
  rw [Session.performAllBy_demand, Session.performBy_demand] at sameAnswer after
  exact ⟨sameAnswer, after.functions⟩

/-- What a list leaves behind, and a level that is lowered over it. -/
def foldedThenLowered : List Request :=
  [.runList ([deadCodeElim, constFold].map name), .setLevel 1, .demand livenessId]

theorem perform_eq_anew_foldedThenLowered :
    let trustsNothing := Session.demandAnew standard
    let start := Session.start standard 2 (Program.ofFunctions [countdown])
    let attempt := (start.performAll standard foldedThenLowered).perform standard
      (.runToFixedPoint 4)
    let anew := Session.performBy standard trustsNothing
      (Session.performAllBy standard trustsNothing start foldedThenLowered) (.runToFixedPoint 4)
    registry = .ok standard ∧ attempt.1 = anew.1 ∧
      attempt.2.world.functions = anew.2.world.functions := by
  have isOther : Request.runToFixedPoint 4 ≠ .takeTrace := by decide
  have same := perform_eq_anew registry_eq 2 (Program.ofFunctions [countdown]) foldedThenLowered
    (.runToFixedPoint 4)
  exact ⟨registry_eq, same.1 isOther, same.2⟩

end StandardPass

end PassScheduler
