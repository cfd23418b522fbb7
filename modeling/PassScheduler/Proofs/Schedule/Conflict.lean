import PassScheduler.Proofs.Registry.Reordering
import PassScheduler.Proofs.Schedule.Closure
import PassScheduler.Proofs.Schedule.Freshness

/-!
Contract: what would become of a pass whose prerequisites conflict, were it scheduled all the same.

The check that refuses such a pass looks at what may run between an analysis that it lists and the
pass itself. Whether it does run there depends on what is valid by then: a runner whose result is
still valid is not run again, and the analysis can be run once more after the runner.

Owns:
- when a conflict draws in its runner for certain, and when nothing runs the analysis after it;
- that such a pass is never answered with a run, and that any answer with a run comes from a run on
  a fresh analysis;
- a refused pass that would have been answered with a run.

Does not own: which conflicts are refused.
-/

open Relation (ReflTransGen)

namespace PassScheduler

namespace Registry

variable {Instance : Type} {registry : Registry Instance}

/-- A pass lists an analysis and, somewhere behind it, a prerequisite that requires a runner which
reaches the analysis, directly or through others. -/
structure Clash (registry : Registry Instance) (pass kept runner : PassId) (before : List PassId)
    (later : PassId) (after : List PassId) : Prop where
  listed : registry.requirements pass = before ++ later :: after
  isEarlier : kept ∈ before
  isAnalysis : registry.isAnalysis kept
  way : ReflTransGen registry.Requires later runner
  upsets : registry.Upsets runner kept

theorem Clash.requires {pass kept runner later : PassId} {before after : List PassId}
    (clash : registry.Clash pass kept runner before later after) :
    registry.Requires pass kept := by
  rw [Requires, clash.listed]
  exact List.mem_append_left _ clash.isEarlier

/-- An analysis that may be valid once some prerequisites have been met. -/
def Sheltered (registry : Registry Instance) (earlier : List PassId) (id : PassId) : Prop :=
  registry.isAnalysis id ∧ ∃ first ∈ earlier, ReflTransGen registry.Requires first id

/-- A pass requires a runner through passes none of which can be valid when only some earlier
prerequisites have been met. -/
inductive DrawsIn (registry : Registry Instance) (earlier : List PassId) (runner : PassId) :
    PassId → Prop where
  | itself (bare : ¬ registry.Sheltered earlier runner) : DrawsIn registry earlier runner runner
  | through {id prerequisite : PassId} (bare : ¬ registry.Sheltered earlier id)
      (requires : registry.Requires id prerequisite)
      (draws : DrawsIn registry earlier runner prerequisite) : DrawsIn registry earlier runner id

/-- Nothing in a list that is behind a pass which requires the runner requires the analysis. -/
def InOrder (registry : Registry Instance) (runner kept : PassId) (prerequisites : List PassId) :
    Prop :=
  prerequisites.Pairwise fun earlier later =>
    ReflTransGen registry.Requires earlier runner → ¬ ReflTransGen registry.Requires later kept

/-- The analysis is not run any more once the runner has run on behalf of some prerequisites. -/
structure Final (registry : Registry Instance) (runner kept : PassId) (pending : List PassId) :
    Prop where
  apart : ∀ next ∈ pending, ReflTransGen registry.Requires next kept →
    ¬ ReflTransGen registry.Requires kept runner
  inOrder : registry.InOrder runner kept pending
  above : ∀ next ∈ pending, ∀ id, ReflTransGen registry.Requires next id →
    registry.InOrder runner kept (registry.requirements id)

variable {runner kept next id : PassId} {pending earlier : List PassId}

namespace Sheltered

theorem tail (sheltered : registry.Sheltered pending id) :
    registry.Sheltered (next :: pending) id :=
  ⟨sheltered.1, sheltered.2.imp fun _ first => ⟨List.mem_cons_of_mem next first.1, first.2⟩⟩

theorem requirements (sheltered : registry.Sheltered (registry.requirements next) id) :
    registry.Sheltered (next :: pending) id := by
  obtain ⟨isAnalysis, first, requires, way⟩ := sheltered
  exact ⟨isAnalysis, next, List.mem_cons_self, .head requires way⟩

end Sheltered

/-- A pass that draws in the runner and is not the runner itself has a prerequisite that does. -/
theorem DrawsIn.exists_requires (draws : registry.DrawsIn earlier runner id)
    (distinct : id ≠ runner) :
    ∃ prerequisite, registry.Requires id prerequisite ∧
      registry.DrawsIn earlier runner prerequisite := by
  cases draws with
  | itself => exact absurd rfl distinct
  | through _ requires draws => exact ⟨_, requires, draws⟩

theorem DrawsIn.not_sheltered (draws : registry.DrawsIn earlier runner id) :
    ¬ registry.Sheltered earlier id := by
  cases draws with
  | itself bare => exact bare
  | through bare => exact bare

namespace Final

theorem tail (final : registry.Final runner kept (next :: pending)) :
    registry.Final runner kept pending where
  apart other member := final.apart other (List.mem_cons_of_mem next member)
  inOrder := (List.pairwise_cons.1 final.inOrder).2
  above other member := final.above other (List.mem_cons_of_mem next member)

theorem requirements (final : registry.Final runner kept (next :: pending)) :
    registry.Final runner kept (registry.requirements next) where
  apart _ requires way := final.apart next List.mem_cons_self (.head requires way)
  inOrder := final.above next List.mem_cons_self next .refl
  above _ requires id way := final.above next List.mem_cons_self id (.head requires way)

/-- Behind a prerequisite that requires the runner, the analysis is not required. -/
theorem notRequired (final : registry.Final runner kept (next :: pending))
    (way : ReflTransGen registry.Requires next runner) :
    ∀ other ∈ pending, ¬ ReflTransGen registry.Requires other kept :=
  fun other member => (List.pairwise_cons.1 final.inOrder).1 other member way

end Final

end Registry

namespace Session

open Registry (Clash Sheltered DrawsIn Final)

variable {Instance World : Type} [Pass Instance World] {registry : Registry Instance}

/-! ## What an execution leaves invalid -/

namespace Executed

variable {session : Session Instance World} {id kept : PassId}
variable {attempt : Attempt Instance World Bool}

/-- Only a run of its own makes a pass valid. -/
theorem isInvalid_kept (executed : Executed registry session id attempt)
    (fits : session.Fits registry) (invalid : ¬ session.isValid kept) (distinct : kept ≠ id) :
    ¬ attempt.2.isValid kept := by
  cases result : attempt.1 with
  | error error =>
      rw [isValid, executed.validity_of_error result]
      exact invalid
  | ok changed =>
      rw [executed.isValid_of_ok fits result]
      rintro (⟨same, _⟩ | ⟨_, valid, _⟩)
      · exact distinct same
      · exact invalid valid

/-- What another pass reaches with its run is not valid after it. -/
theorem isInvalid_of_upsets (executed : Executed registry session id attempt)
    (resolved : registry.Resolved) (fits : session.Fits registry) (distinct : kept ≠ id)
    (upsets : registry.Upsets id kept) {changed : Bool} (succeeded : attempt.1 = .ok changed) :
    ¬ attempt.2.isValid kept := by
  rw [executed.isValid_of_ok fits succeeded]
  rintro (⟨same, _⟩ | ⟨_, _, spared⟩)
  · exact distinct same
  · exact spared (resolved.mem_stale.2 upsets)

end Executed

/-! ## Prerequisites -/

namespace Met

variable {path pending earlier : List PassId} {session : Session Instance World}
variable {attempt : Attempt Instance World Unit} {runner kept : PassId}

/-- Prerequisites are met by meeting the first of them and then the others. -/
theorem split {first second : List PassId}
    (met : Met registry path (first ++ second) session attempt) (succeeded : attempt.1 = .ok ()) :
    ∃ middle, Met registry path first session (.ok (), middle) ∧
      Met registry path second middle attempt := by
  induction first generalizing session with
  | nil => exact ⟨session, .done, met⟩
  | cons next first inductionHypothesis =>
      cases met with
      | cached valid rest =>
          obtain ⟨middle, metFirst, metSecond⟩ := inductionHypothesis rest
          exact ⟨middle, .cached valid metFirst, metSecond⟩
      | ran invalid offPath shallow above executed rest =>
          obtain ⟨middle, metFirst, metSecond⟩ := inductionHypothesis rest
          exact ⟨middle, .ran invalid offPath shallow above executed metFirst, metSecond⟩
      | _ => cases succeeded

/-- What becomes valid while prerequisites are met are analyses that they require. -/
theorem sheltered_of_isValid (met : Met registry path pending session attempt)
    (fits : session.Fits registry) {id : PassId} (valid : attempt.2.isValid id) :
    session.isValid id ∨ registry.Sheltered pending id := by
  induction met with
  | done => exact .inl valid
  | cached _ _ inductionHypothesis => exact (inductionHypothesis fits valid).imp_right .tail
  | circular => exact .inl valid
  | tooDeep => exact .inl valid
  | blocked _ _ _ _ above => exact (above fits valid).imp_right .requirements
  | failed _ _ _ _ executed above =>
      rw [isValid, executed.validity_of_error rfl] at valid
      exact (above fits valid).imp_right .requirements
  | @ran path pending next changed session between after attempt _ _ _ aboveMet executed _ above
      rest =>
      have fitsBetween := aboveMet.fits fits
      rcases rest (executed.fits fitsBetween) valid with validAfter | sheltered
      · rcases (executed.isValid_of_ok fitsBetween rfl id).1 validAfter with
          ⟨rfl, isAnalysis⟩ | ⟨_, validBetween, _⟩
        · exact .inr ⟨isAnalysis, id, List.mem_cons_self, .refl⟩
        · exact (above fits validBetween).imp_right .requirements
      · exact .inr sheltered.tail

/-- A pass that is not valid does not become valid while prerequisites are met that do not require
it. -/
theorem isInvalid_kept (met : Met registry path pending session attempt)
    (fits : session.Fits registry) (invalid : ¬ session.isValid kept)
    (notRequired : ∀ next ∈ pending, ¬ ReflTransGen registry.Requires next kept) :
    ¬ attempt.2.isValid kept := by
  intro valid
  rcases met.sheltered_of_isValid fits valid with wasValid | ⟨_, next, member, way⟩
  · exact invalid wasValid
  · exact notRequired next member way

/-- Where the analysis is not run any more once the runner has run, either the runner has run while
prerequisites were met, and then the analysis is not valid afterwards, or there was no need of
it. -/
theorem isInvalid_or_bare (met : Met registry path pending session attempt)
    (resolved : registry.Resolved) (fits : session.Fits registry)
    (upsets : registry.Upsets runner kept) (final : registry.Final runner kept pending)
    (bare : ∀ id, session.isValid id → ¬ registry.DrawsIn earlier runner id)
    (succeeded : attempt.1 = .ok ()) :
    (¬ attempt.2.isValid kept ∧ ∃ next ∈ pending, ReflTransGen registry.Requires next runner) ∨
      (∀ id, attempt.2.isValid id → ¬ registry.DrawsIn earlier runner id) ∧
        ∀ next ∈ pending, ¬ registry.DrawsIn earlier runner next := by
  induction met with
  | done => exact .inr ⟨bare, by simp⟩
  | @cached path pending next session attempt valid _ inductionHypothesis =>
      rcases inductionHypothesis fits final.tail bare succeeded with
        ⟨invalid, other, member, way⟩ | ⟨stillBare, others⟩
      · exact .inl ⟨invalid, other, List.mem_cons_of_mem _ member, way⟩
      · exact .inr ⟨stillBare, List.forall_mem_cons.2 ⟨bare next valid, others⟩⟩
  | circular => cases succeeded
  | tooDeep => cases succeeded
  | blocked => cases succeeded
  | failed => cases succeeded
  | @ran path pending next changed session between after attempt _ _ _ aboveMet executed restMet
      above rest =>
      have fitsBetween := aboveMet.fits fits
      have fitsAfter := executed.fits fitsBetween
      -- Once the runner has run on behalf of this prerequisite, no other one requires the analysis.
      have conclude (way : ReflTransGen registry.Requires next runner)
          (invalid : ¬ after.isValid kept) :
          ¬ attempt.2.isValid kept ∧
            ∃ first ∈ next :: pending, ReflTransGen registry.Requires first runner :=
        ⟨restMet.isInvalid_kept fitsAfter invalid (final.notRequired way), next,
          List.mem_cons_self, way⟩
      have distinct : ReflTransGen registry.Requires next runner → kept ≠ next := by
        rintro way rfl
        exact final.apart kept List.mem_cons_self .refl way
      rcases above fits final.requirements bare rfl with
        ⟨invalid, first, requires, way⟩ | ⟨bareBetween, notDrawn⟩
      · have wayOn : ReflTransGen registry.Requires next runner := .head requires way
        exact .inl (conclude wayOn (executed.isInvalid_kept fitsBetween invalid (distinct wayOn)))
      · by_cases isRunner : next = runner
        · subst isRunner
          exact .inl (conclude .refl
            (executed.isInvalid_of_upsets resolved fitsBetween (distinct .refl) upsets rfl))
        · have notDrawnNext : ¬ registry.DrawsIn earlier runner next := by
            intro draws
            obtain ⟨prerequisite, requires, drawsOn⟩ := draws.exists_requires isRunner
            exact notDrawn prerequisite requires drawsOn
          have bareAfter : ∀ id, after.isValid id → ¬ registry.DrawsIn earlier runner id := by
            intro id valid
            rcases (executed.isValid_of_ok fitsBetween rfl id).1 valid with
              ⟨rfl, _⟩ | ⟨_, validBetween, _⟩
            · exact notDrawnNext
            · exact bareBetween id validBetween
          rcases rest fitsAfter final.tail bareAfter succeeded with
            ⟨invalid, other, member, way⟩ | ⟨stillBare, others⟩
          · exact .inl ⟨invalid, other, List.mem_cons_of_mem _ member, way⟩
          · exact .inr ⟨stillBare, List.forall_mem_cons.2 ⟨notDrawnNext, others⟩⟩

end Met

/-! ## Demands from the start -/

section Start

variable {level : Level} {world : World} {pass kept runner later : PassId}
variable {before after : List PassId} {descriptor : Descriptor}

/-- A demand of an enabled pass from the start is answered by its run, once its prerequisites are
met. -/
theorem ran_of_demand_start (found : registry.descriptor? pass = some descriptor)
    (enabled : descriptor.isEnabledAt level) {changed : Bool} {session : Session Instance World}
    (answered : (start registry level world).demand registry pass = (.ok changed, session)) :
    ∃ between : Session Instance World,
      Met registry [pass] (registry.requirements pass)
          ((start registry level world).note (.demanded descriptor.name)) (.ok (), between) ∧
        Executed registry between pass (.ok changed, session) := by
  have done := demanded registry (start registry level world) pass
  rw [answered] at done
  cases done with
  | skipped other gated =>
      obtain rfl := Option.some.inj (found.symm.trans other)
      exact absurd enabled gated
  | cached _ _ valid => exact absurd valid (not_isValid_start registry level world pass)
  | ran other _ _ met executed =>
      obtain rfl := Option.some.inj (found.symm.trans other)
      exact ⟨_, met, executed⟩

/-- A run that answers a demand from the start is one on fresh analyses. -/
theorem fresh_of_demand_start (resolved : registry.Resolved)
    (found : registry.descriptor? pass = some descriptor) (enabled : descriptor.isEnabledAt level)
    {changed : Bool} {session : Session Instance World}
    (answered : (start registry level world).demand registry pass = (.ok changed, session)) :
    ∃ history minor,
      session.history = history ++ .noticed (.ran (registry.name pass) changed) :: minor ∧
        (∀ entry ∈ minor, entry.Minor) ∧
        ∀ kept, registry.Requires pass kept → registry.isAnalysis kept →
          FreshIn registry history kept := by
  obtain ⟨between, met, executed⟩ := ran_of_demand_start found enabled answered
  have soundOpened := (Step.demanded (start registry level world) descriptor.name).sound resolved
    (sound_start registry level world)
  have sound := sound_of_steps met.steps resolved soundOpened
  obtain ⟨first, last, records, firstMinor, lastMinor⟩ := executed.records_of_ok rfl
  refine ⟨between.history ++ first, last, ?_, lastMinor, fun kept requires isAnalysis => ?_⟩
  · rw [List.append_assoc]
    exact records.history
  · have fresh := sound.fresh kept (executed.fresh_of_ok rfl requires isAnalysis)
    exact fresh.append fun entry member => (firstMinor entry member).harmless kept

/-- A pass whose prerequisites conflict is not answered with a run, if the runner is drawn in by
what is not valid and nothing runs the analysis after it. -/
theorem demand_start_ne_ok (resolved : registry.Resolved)
    (found : registry.descriptor? pass = some descriptor) (enabled : descriptor.isEnabledAt level)
    (clash : Clash registry pass kept runner before later after)
    (draws : DrawsIn registry before runner later)
    (final : Final registry runner kept (later :: after)) (changed : Bool) :
    ((start registry level world).demand registry pass).1 ≠ .ok changed := by
  intro succeeded
  obtain ⟨between, met, executed⟩ :=
    ran_of_demand_start found enabled (Prod.ext succeeded rfl)
  have valid := executed.fresh_of_ok rfl clash.requires clash.isAnalysis
  rw [clash.listed] at met
  obtain ⟨middle, metBefore, metBehind⟩ := met.split rfl
  have fits : ((start registry level world).note (.demanded descriptor.name)).Fits registry :=
    (sound_start registry level world).fits
  have bare : ∀ id, middle.isValid id → ¬ DrawsIn registry before runner id := by
    intro id validHere drawsIt
    rcases metBefore.sheltered_of_isValid fits validHere with wasValid | sheltered
    · exact not_isValid_start registry level world id wasValid
    · exact drawsIt.not_sheltered sheltered
  rcases metBehind.isInvalid_or_bare resolved (metBefore.fits fits) clash.upsets final bare rfl with
    ⟨invalid, _⟩ | ⟨_, notDrawn⟩
  · exact invalid valid
  · exact notDrawn later List.mem_cons_self draws

end Start

end Session

/-! ## Refused configurations -/

namespace Registrations

open Registry (Clash DrawsIn Final)

variable {Instance : Type} {registrations : Registrations Instance}

/-- A refused conflict is one between passes whose names resolve. -/
theorem clash_of_refused (registered : registrations.Registered)
    {name prerequisite invalidator : String}
    (refused : registrations.build =
      .error (.conflictingPrerequisites name prerequisite invalidator)) :
    ∃ (registry : Registry Instance) (pass kept runner : PassId),
      registry.Resolves registrations ∧ registry.id? name = some pass ∧
        registry.id? prerequisite = some kept ∧ registry.id? invalidator = some runner ∧
        ∃ before later after, registry.Clash pass kept runner before later after := by
  cases resolved : registrations.resolvePasses registrations.accepted with
  | error other =>
      have same : registrations.build = .error other := by simp only [build, resolved]
      obtain ⟨registration, _, isRefused⟩ := resolvePasses_eq_error resolved
      obtain ⟨_, _, _, _, rfl⟩ := resolvePass_eq_error isRefused
      rw [same] at refused
      cases refused
  | ok passes =>
      have resolves : (Registry.ofPasses passes).Resolves registrations :=
        ⟨registered, resolved, rfl⟩
      have number {id : PassId} {descriptor : Descriptor}
          (found : registrations.descriptor? id = some descriptor) :
          (Registry.ofPasses passes).id? descriptor.name = some id := by
        rw [resolves.id?_eq]
        exact (id?_eq_some_iff registered).2 ⟨descriptor, found, rfl⟩
      cases (tells_of_build registered refused).2 with
      | @conflict pass kept runner _ _ _ conflict isPass isKept isRunner =>
          obtain ⟨before, later, after, listed, isEarlier, isAnalysis, way, upsets⟩ :=
            resolves.conflict_iff.1 conflict
          exact ⟨_, pass, kept, runner, resolves, number isPass, number isKept, number isRunner,
            before, later, after, listed, isEarlier, isAnalysis, way, upsets⟩

/-- The refusal of a conflict between an analysis and its invalidator in the list of a pass, told by
what becomes of the pass when the resolved passes are scheduled unchecked, whatever they do. If a
demand of it from the start is answered with a run, then since the latest run of the analysis
neither the invalidator ran nor anything else that reaches the analysis. The demand is not answered
with a run at all, if the prerequisite behind the analysis requires the invalidator through passes
none of which the prerequisites before it may leave valid, and nothing runs the analysis once more
when the invalidator has run. -/
theorem demandNamed_of_conflict (registered : registrations.Registered)
    {name prerequisite invalidator : String}
    (refused : registrations.build =
      .error (.conflictingPrerequisites name prerequisite invalidator)) :
    ∃ (registry : Registry Instance) (pass kept runner : PassId),
      registry.Resolves registrations ∧ registry.id? name = some pass ∧
        registry.id? prerequisite = some kept ∧ registry.id? invalidator = some runner ∧
        (∃ before later after, registry.Clash pass kept runner before later after) ∧
        ∀ (World : Type) [Pass Instance World] (level : Level) (world : World)
          (descriptor : Descriptor), registry.descriptor? pass = some descriptor →
          descriptor.isEnabledAt level →
          (∀ changed session,
            (Session.start registry level world).demandNamed registry name =
                (.ok changed, session) →
              ∃ history minor,
                session.history = history ++ .noticed (.ran name changed) :: minor ∧
                  (∀ entry ∈ minor, entry.Minor) ∧ Session.FreshIn registry history kept) ∧
          ∀ before later after, registry.Clash pass kept runner before later after →
            registry.DrawsIn before runner later → registry.Final runner kept (later :: after) →
            ∀ changed,
              ((Session.start registry level world).demandNamed registry name).1 ≠
                .ok changed := by
  obtain ⟨registry, pass, kept, runner, resolves, isPass, isKept, isRunner, clash⟩ :=
    clash_of_refused registered refused
  refine ⟨registry, pass, kept, runner, resolves, isPass, isKept, isRunner, clash, ?_⟩
  intro World _ level world descriptor found enabled
  have resolved : registry.Resolved := ⟨registrations, resolves⟩
  have named : (Session.start registry level world).demandNamed registry name =
      (Session.start registry level world).demand registry pass := by
    simp only [Session.demandNamed, isPass]
  rw [named]
  constructor
  · intro changed session answered
    obtain ⟨history, minor, split, isMinor, fresh⟩ :=
      Session.fresh_of_demand_start resolved found enabled answered
    obtain ⟨before, later, after, clash⟩ := clash
    have nameOfPass : registry.name pass = name := by
      rw [resolves.id?_eq] at isPass
      obtain ⟨_, isThere, isNamed⟩ := (id?_eq_some_iff registered).1 isPass
      rw [resolves.descriptor?_eq] at isThere
      rw [Registry.name, isThere]
      exact isNamed
    rw [nameOfPass] at split
    exact ⟨history, minor, split, isMinor, fresh kept clash.requires clash.isAnalysis⟩
  · intro before later after clash draws final
    exact Session.demand_start_ne_ok resolved found enabled clash draws final

/-- An analysis, a transformation that requires it and makes it stale, and a pass that requires both
in that order. -/
def pruned : List (ResolvedPass Reporter) :=
  [⟨⟨Descriptor.analysis "flow", fun _ => ⟨false⟩⟩, [], []⟩,
    ⟨⟨((Descriptor.transformation "prune").requiring "flow").invalidating "flow",
      fun _ => ⟨true⟩⟩, [0], [0]⟩,
    ⟨⟨((Descriptor.transformation "report").requiring "flow").requiring "prune",
      fun _ => ⟨false⟩⟩, [0, 1], []⟩]

theorem final_pruned : Final (.ofPasses pruned) 1 0 [1] where
  apart := by
    rintro _ _ _ way
    rcases way.cases_head with same | ⟨_, requires, _⟩
    · cases same
    · cases requires
  inOrder := List.pairwise_singleton _ _
  above := by
    intro next isNext id way
    obtain rfl := List.mem_singleton.1 isNext
    rcases way.cases_head with rfl | ⟨_, requires, wayOn⟩
    · exact List.pairwise_singleton _ _
    · obtain rfl := List.mem_singleton.1 requires
      rcases wayOn.cases_head with rfl | ⟨_, requires, _⟩
      · exact List.Pairwise.nil
      · cases requires

theorem demandNamed_of_conflict_pruned :
    let registrations := Registrations.mk (pruned.map ResolvedPass.toRegistration)
    registrations.Registered ∧
      registrations.build = .error (.conflictingPrerequisites "report" "flow" "prune") ∧
      Clash (.ofPasses pruned) 2 0 1 [0] 1 [] ∧ DrawsIn (.ofPasses pruned) [0] 1 1 ∧
      Final (.ofPasses pruned) 1 0 [1] ∧
      ((Session.start (.ofPasses pruned) 0 ()).demandNamed (.ofPasses pruned) "report").1 ≠
        .ok false := by
  intro registrations
  have registered : registrations.Registered :=
    ((Registered.empty.add (registrations.accepted[0]) rfl).add (registrations.accepted[1])
      rfl).add (registrations.accepted[2]) rfl
  have refused : registrations.build =
      .error (.conflictingPrerequisites "report" "flow" "prune") := by
    cbv
  have clash : Clash (.ofPasses pruned) 2 0 1 [0] 1 [] :=
    ⟨rfl, List.mem_singleton_self 0, rfl, .refl, 0, List.mem_singleton_self 0, .refl⟩
  have draws : DrawsIn (.ofPasses pruned) [0] 1 1 := by
    refine .itself fun sheltered => ?_
    cases sheltered.1
  obtain ⟨registry, pass, kept, runner, resolves, isPass, isKept, isRunner, _, unchecked⟩ :=
    demandNamed_of_conflict registered refused
  have passes : pruned = registry.passes := Except.ok.inj resolves.resolved
  obtain rfl : registry = .ofPasses pruned := passes ▸ resolves.eq_ofPasses
  have reportIs : (Registry.ofPasses pruned).id? "report" = some 2 := by cbv
  have flowIs : (Registry.ofPasses pruned).id? "flow" = some 0 := by cbv
  have pruneIs : (Registry.ofPasses pruned).id? "prune" = some 1 := by cbv
  obtain rfl := Option.some.inj (reportIs.symm.trans isPass)
  obtain rfl := Option.some.inj (flowIs.symm.trans isKept)
  obtain rfl := Option.some.inj (pruneIs.symm.trans isRunner)
  exact ⟨registered, refused, clash, draws, final_pruned,
    (unchecked Unit 0 () _ rfl rfl).2 [0] 1 [] clash draws final_pruned false⟩

/-- An analysis, another one that requires it and that it makes stale, and a pass that requires
both, the stale one first. -/
def scanned : List (ResolvedPass Reporter) :=
  [⟨⟨(Descriptor.analysis "scan").invalidating "alias", fun _ => ⟨false⟩⟩, [], [1]⟩,
    ⟨⟨(Descriptor.analysis "alias").requiring "scan", fun _ => ⟨false⟩⟩, [0], []⟩,
    ⟨⟨((Descriptor.transformation "report").requiring "alias").requiring "scan",
      fun _ => ⟨false⟩⟩, [1, 0], []⟩]

/-- The pass is refused, and yet it is run if nothing is checked: the invalidator has run before the
analysis, and its result is still valid when the pass requires it. -/
theorem answered_of_conflict_scanned :
    let registrations := Registrations.mk (scanned.map ResolvedPass.toRegistration)
    registrations.Registered ∧
      registrations.build = .error (.conflictingPrerequisites "report" "alias" "scan") ∧
      registrations.resolvePasses registrations.accepted = .ok scanned ∧
      ((Session.start (.ofPasses scanned) 0 ()).demandNamed (.ofPasses scanned) "report").1 =
        .ok false := by
  intro registrations
  have registered : registrations.Registered :=
    ((Registered.empty.add (registrations.accepted[0]) rfl).add (registrations.accepted[1])
      rfl).add (registrations.accepted[2]) rfl
  refine ⟨registered, ?_, rfl, ?_⟩
  · cbv
  · cbv

end Registrations

end PassScheduler
