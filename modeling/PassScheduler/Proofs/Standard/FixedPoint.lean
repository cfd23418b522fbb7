import PassScheduler.Proofs.Standard.Progress

/-!
Contract: repeated runs over the standard passes come to an end, and say so.

Every run but the last has made the program lighter, so there are at most as many of these as the
program weighs at the start.

Owns:
- that a run of all passes, or of a list of them, is answered, and that the answer is true;
- the number of runs that a repetition makes, whatever was asked of the session before.

Does not own: what a program looks like when nothing changes it any more.
-/

open Relation (ReflTransGen)

namespace PassScheduler.StandardPass

/-! ## Runs -/

/-- A session that can begin a run: its program keeps all rules, and its analyses are not looked
at before they are made again. -/
structure Ready (session : Session StandardPass Program) : Prop where
  fits : session.Fits standard
  bound : Bound session
  unbroken : firstViolation? [] session.world.functions = none

theorem Sound.ready {session : Session StandardPass Program} (sound : Sound session) :
    Ready session :=
  ⟨sound.tracked.fits, sound.tracked.bound, sound.unbroken⟩

theorem Ready.reset {session : Session StandardPass Program} (ready : Ready session) :
    Sound session.reset where
  tracked := Formed.tracked_reset ⟨ready.fits, ready.bound⟩
  unbroken := ready.unbroken

theorem Sound.demandAll {ids : List PassId} (inside : ∀ id ∈ ids, id < standard.size)
    {session : Session StandardPass Program} (sound : Sound session) :
    Advances session.world (Session.demandAll standard ids session) := by
  induction ids generalizing session with
  | nil => exact ⟨false, session, rfl, sound, .unchanged rfl⟩
  | cons id rest inductionHypothesis =>
      obtain ⟨isInside, others⟩ := List.forall_mem_cons.1 inside
      obtain ⟨changed, between, demanded, soundBetween, first⟩ := sound.demand isInside
      obtain ⟨more, after, restDemanded, soundAfter, second⟩ :=
        inductionHypothesis others soundBetween
      refine ⟨changed || more, after, ?_, soundAfter, first.trans second⟩
      simp only [Session.demandAll, demanded, restDemanded]

variable {session : Session StandardPass Program}

theorem Ready.runOnce (ready : Ready session) :
    Advances session.world (session.runOnce standard) := by
  have inside : ∀ id ∈ standard.candidates session.level, id < standard.size :=
    fun id isCandidate => List.mem_range.1 (List.mem_filter.1 isCandidate).1
  obtain ⟨changed, after, demanded, sound, progress⟩ := ready.reset.demandAll inside
  refine ⟨changed, after.notice (.runFinished after.level changed), ?_, ?_, progress⟩
  · simp only [Session.runOnce, demanded]
  · exact sound.stepped (.told after rfl)

theorem exists_name (pass : StandardPass) :
    ∃ id < standard.size, standard.name id = pass.name := by
  cases pass <;> decide

theorem resolveNames_standard {names : List String}
    (standardNames : ∀ name ∈ names, ∃ pass : StandardPass, pass.name = name) :
    ∃ ids, standard.resolveNames names = .ok ids ∧ ∀ id ∈ ids, id < standard.size := by
  induction names with
  | nil => exact ⟨[], rfl, by simp⟩
  | cons name rest inductionHypothesis =>
      obtain ⟨⟨pass, rfl⟩, others⟩ := List.forall_mem_cons.1 standardNames
      obtain ⟨ids, resolved, inside⟩ := inductionHypothesis others
      obtain ⟨id, isInside, isName⟩ := exists_name pass
      have found : standard.id? pass.name = some id := by
        rw [← isName]
        exact accepted_standard.id?_name isInside
      refine ⟨id :: ids, ?_, List.forall_mem_cons.2 ⟨isInside, inside⟩⟩
      rw [Registry.resolveNames, found, resolved]
      rfl

theorem Ready.runList {names : List String} {ids : List PassId}
    (resolved : standard.resolveNames names = .ok ids) (inside : ∀ id ∈ ids, id < standard.size)
    (ready : Ready session) :
    Advances session.world (Session.runList standard names session) := by
  obtain ⟨changed, after, demanded, sound, progress⟩ := ready.reset.demandAll inside
  refine ⟨changed, after.notice (.listFinished after.level names.length changed), ?_, ?_, progress⟩
  · simp only [Session.runList, resolved, demanded]
  · exact sound.stepped (.told after rfl)

/-! ## Repetition -/

/-- Every run but the last makes the program lighter, so the runs are at most as many as it weighs,
and one. -/
theorem repeatRun_converges
    {run : Session StandardPass Program → Attempt StandardPass Program Bool}
    (advances : ∀ session, Ready session → Advances session.world (run session))
    (ready : Ready session) {remaining : Nat} (enough : session.world.potential < remaining)
    (made : Nat) :
    ∃ iterations ≤ made + session.world.potential + 1,
      (Session.repeatRun run made remaining session).1 = .ok ⟨iterations, true⟩ := by
  induction remaining generalizing made session with
  | zero => cases enough
  | succ remaining inductionHypothesis =>
      obtain ⟨changed, after, ran, sound, progress⟩ := advances session ready
      unfold Session.repeatRun
      rw [ran]
      cases progress with
      | unchanged => exact ⟨made + 1, by omega, rfl⟩
      | lighter less =>
          have enoughAfter : after.world.potential < remaining := by omega
          obtain ⟨iterations, few, converged⟩ :=
            inductionHypothesis sound.ready enoughAfter (made + 1)
          exact ⟨iterations, by omega, converged⟩

/-- On a verified program and with a cap above its potential, repeated runs of the standard passes
converge, and so do repeated runs of any list of them. This holds at every level and whatever was
asked of the session before. -/
theorem runToFixedPoint_converges {registry : Registry StandardPass}
    (built : StandardPass.registry = .ok registry) {session : Session StandardPass Program}
    (reachable : Session.Reachable registry session)
    (verified : (verify.apply session.world).1 = .ok false) {cap : Nat}
    (enough : session.world.potential < cap) :
    (∃ iterations ≤ session.world.potential + 1,
        (session.runToFixedPoint registry cap).1 = .ok ⟨iterations, true⟩) ∧
      ∀ names : List String, (∀ name ∈ names, ∃ pass : StandardPass, pass.name = name) →
        ∃ iterations ≤ session.world.potential + 1,
          (session.runListToFixedPoint registry names cap).1 = .ok ⟨iterations, true⟩ := by
  obtain rfl : standard = registry := Except.ok.inj (registry_eq.symm.trans built)
  have ready : Ready session :=
    ⟨reachable.fits, bound_of_reachable reachable, firstViolation?_of_verified verified⟩
  constructor
  · obtain ⟨iterations, few, converged⟩ :=
      repeatRun_converges (fun _ ready => ready.runOnce) ready enough 0
    exact ⟨iterations, by omega, converged⟩
  · intro names standardNames
    obtain ⟨ids, resolved, inside⟩ := resolveNames_standard standardNames
    obtain ⟨iterations, few, converged⟩ :=
      repeatRun_converges (fun _ ready => ready.runList resolved inside) ready enough 0
    refine ⟨iterations, by omega, ?_⟩
    simp only [Session.runListToFixedPoint, resolved]
    exact converged

/-- A function that branches on a difference which is known to be zero. -/
def undecided : Function where
  name := "main"
  params := [⟨0⟩]
  blocks := [
    ⟨"entry", [⟨⟨1⟩, .const 2⟩, ⟨⟨2⟩, .binary .sub (.value ⟨1⟩) (.imm 2)⟩,
      ⟨⟨3⟩, .copy (.value ⟨0⟩)⟩], .br (.value ⟨2⟩) "entry" "exit"⟩,
    ⟨"exit", [], .ret (.value ⟨0⟩)⟩]

theorem runToFixedPoint_converges_undecided :
    let session := Session.start standard 2 (Program.ofFunctions [undecided])
    let names := [deadCodeElim, simplifyBranches, constFold, constFold].map name
    registry = .ok standard ∧ Session.Reachable standard session ∧
      (verify.apply session.world).1 = .ok false ∧ session.world.potential = 11 ∧
      (∀ name ∈ names, ∃ pass : StandardPass, pass.name = name) ∧
      (∃ iterations ≤ 12, (session.runToFixedPoint standard 20).1 = .ok ⟨iterations, true⟩) ∧
      ∃ iterations ≤ 12,
        (session.runListToFixedPoint standard names 12).1 = .ok ⟨iterations, true⟩ := by
  intro session names
  have reachable : Session.Reachable standard session := .start 2 _
  have verified : (verify.apply session.world).1 = .ok false := by cbv
  have potential : session.world.potential = 11 := by decide
  have standardNames : ∀ name ∈ names, ∃ pass : StandardPass, pass.name = name := by
    intro name member
    obtain ⟨pass, _, isName⟩ := List.mem_map.1 member
    exact ⟨pass, isName⟩
  have converges := fun cap (enough : session.world.potential < cap) =>
    runToFixedPoint_converges registry_eq reachable verified enough
  rw [potential] at converges
  refine ⟨registry_eq, reachable, verified, potential, standardNames, ?_, ?_⟩
  · exact (converges 20 (by decide)).1
  · exact (converges 12 (by decide)).2 names standardNames

end PassScheduler.StandardPass
