import PassScheduler.Proofs.Registry.Standard
import PassScheduler.Proofs.Schedule.Course

/-!
Contract: a pass never runs on a stale prerequisite.

Whatever runs between the resolution of a prerequisite and the run of the pass that lists it is
required by a later prerequisite of that pass, and an accepted registry has no such pass that makes
the earlier prerequisite stale.

Owns:
- validity that outlasts the meeting of some prerequisites;
- the validity of every listed analysis once all prerequisites are met;
- that no request answers with a stale prerequisite.

Does not own: the other errors of a request.
-/

open Relation (ReflTransGen)

namespace PassScheduler.Session

variable {Instance World : Type} [Pass Instance World] {registry : Registry Instance}

/-- A pass that nothing can upset which some passes require, directly or through others. -/
def Spared (registry : Registry Instance) (kept : PassId) (pending : List PassId) : Prop :=
  ∀ next ∈ pending, ∀ runner, ReflTransGen registry.Requires next runner →
    ¬ registry.Upsets runner kept

namespace Spared

variable {kept next : PassId} {pending : List PassId}

theorem tail (spared : Spared registry kept (next :: pending)) : Spared registry kept pending :=
  fun other member => spared other (List.mem_cons_of_mem next member)

theorem requirements (spared : Spared registry kept (next :: pending)) :
    Spared registry kept (registry.requirements next) :=
  fun _ required runner reaches =>
    spared next List.mem_cons_self runner (.head required reaches)

theorem head (spared : Spared registry kept (next :: pending)) : ¬ registry.Upsets next kept :=
  spared next List.mem_cons_self next .refl

end Spared

namespace Executed

variable {session : Session Instance World} {id kept : PassId}
variable {attempt : Attempt Instance World Bool}

/-- A valid pass stays valid when another one runs that does not upset it. -/
theorem isValid_kept (executed : Executed registry session id attempt)
    (accepted : registry.Accepted) (fits : session.Fits registry) (valid : session.isValid kept)
    (distinct : kept ≠ id) (spared : ¬ registry.Upsets id kept) :
    attempt.2.isValid kept := by
  cases result : attempt.1 with
  | error error =>
      rw [isValid, executed.validity_of_error result]
      exact valid
  | ok changed =>
      rw [executed.isValid_of_ok fits result]
      exact .inr ⟨distinct, valid, fun stale => spared (accepted.resolved.mem_stale.1 stale)⟩

/-- An execution complains of a stale prerequisite only if there is one. -/
theorem not_stale (executed : Executed registry session id attempt)
    (fresh : ∀ other, registry.Requires id other → registry.isAnalysis other →
      session.isValid other) {error : ScheduleError} (failed : attempt.1 = .error error)
    (pass prerequisite : String) :
    error ≠ .stalePrerequisite pass prerequisite := by
  cases executed with
  | unknown =>
      cases failed
      simp
  | stale _ listed isAnalysis invalid => exact absurd (fresh _ listed isAnalysis) invalid
  | failed =>
      cases failed
      simp
  | ran => cases failed

end Executed

namespace Met

variable {path pending : List PassId} {session : Session Instance World}
variable {attempt : Attempt Instance World Unit}

/-- What is valid and spared stays valid while prerequisites are met, also if that fails. -/
theorem isValid_kept (met : Met registry path pending session attempt)
    (accepted : registry.Accepted) {kept : PassId} (fits : session.Fits registry)
    (valid : session.isValid kept) (spared : Spared registry kept pending) :
    attempt.2.isValid kept := by
  induction met with
  | done => exact valid
  | cached _ _ inductionHypothesis => exact inductionHypothesis fits valid spared.tail
  | circular => exact valid
  | tooDeep => exact valid
  | blocked _ _ _ _ above => exact above fits valid spared.requirements
  | @failed _ _ next _ _ _ _ invalid _ _ aboveMet executed above =>
      have distinct : kept ≠ next := by
        rintro rfl
        exact invalid valid
      have validAbove := above fits valid spared.requirements
      exact executed.isValid_kept accepted (aboveMet.fits fits) validAbove distinct spared.head
  | @ran _ _ next _ _ _ _ _ invalid _ _ aboveMet executed _ above rest =>
      have distinct : kept ≠ next := by
        rintro rfl
        exact invalid valid
      have fitsAbove := aboveMet.fits fits
      have validAbove := above fits valid spared.requirements
      have validAfter := executed.isValid_kept accepted fitsAbove validAbove distinct spared.head
      exact rest (executed.fits fitsAbove) validAfter spared.tail

/-- Once all prerequisites of a pass are met, the analyses among them are valid. -/
theorem isValid_of_ok (met : Met registry path pending session attempt)
    (accepted : registry.Accepted) {id : PassId} {earlier : List PassId}
    (listed : registry.requirements id = earlier ++ pending) (fits : session.Fits registry)
    (valid : ∀ other ∈ earlier, registry.isAnalysis other → session.isValid other)
    (succeeded : attempt.1 = .ok ()) :
    ∀ other, registry.Requires id other → registry.isAnalysis other → attempt.2.isValid other := by
  induction met generalizing earlier with
  | done =>
      intro other required
      rw [Registry.Requires, listed, List.append_nil] at required
      exact valid other required
  | @cached path pending next session attempt validNext _ inductionHypothesis =>
      refine inductionHypothesis (by rw [listed, List.append_cons]) fits ?_ succeeded
      intro other member isAnalysis
      rcases List.mem_append.1 member with isEarlier | isNext
      · exact valid other isEarlier isAnalysis
      · rw [List.mem_singleton.1 isNext]
        exact validNext
  | circular => cases succeeded
  | tooDeep => cases succeeded
  | blocked => cases succeeded
  | failed => cases succeeded
  | @ran path pending next changed session between after attempt invalid _ _ aboveMet executed _ _
      inductionHypothesis =>
      have fitsBetween := aboveMet.fits fits
      refine inductionHypothesis (by rw [listed, List.append_cons]) (executed.fits fitsBetween) ?_
        succeeded
      intro other member isAnalysis
      rcases List.mem_append.1 member with isEarlier | isNext
      · have validOther := valid other isEarlier isAnalysis
        have distinct : other ≠ next := by
          rintro rfl
          exact invalid validOther
        have harmless : ∀ runner, ReflTransGen registry.Requires next runner →
            ¬ registry.Upsets runner other :=
          fun runner reaches => accepted.not_upsets listed isEarlier isAnalysis reaches
        have spared : Spared registry other (registry.requirements next) :=
          fun required isRequired runner reaches => harmless runner (.head isRequired reaches)
        have validBetween := aboveMet.isValid_kept accepted fits validOther spared
        exact executed.isValid_kept accepted fitsBetween validBetween distinct
          (harmless next .refl)
      · rw [List.mem_singleton.1 isNext] at isAnalysis ⊢
        exact (executed.isValid_of_ok fitsBetween rfl next).2 (.inl ⟨rfl, isAnalysis⟩)

/-- The prerequisites of a pass, met from the first on. -/
theorem isValid_requirements {id : PassId}
    (met : Met registry path (registry.requirements id) session attempt)
    (accepted : registry.Accepted) (fits : session.Fits registry)
    (succeeded : attempt.1 = .ok ()) :
    ∀ other, registry.Requires id other → registry.isAnalysis other → attempt.2.isValid other :=
  met.isValid_of_ok accepted (List.nil_append _).symm fits (by simp) succeeded

theorem not_stale (met : Met registry path pending session attempt)
    (accepted : registry.Accepted) (fits : session.Fits registry) {error : ScheduleError}
    (failed : attempt.1 = .error error) (pass prerequisite : String) :
    error ≠ .stalePrerequisite pass prerequisite := by
  induction met with
  | done => cases failed
  | cached _ _ inductionHypothesis => exact inductionHypothesis fits failed
  | circular =>
      cases failed
      simp
  | tooDeep =>
      cases failed
      simp
  | blocked _ _ _ _ above => exact above fits failed
  | failed _ _ _ aboveMet executed _ =>
      cases failed
      have fresh := aboveMet.isValid_requirements accepted fits rfl
      exact executed.not_stale fresh rfl pass prerequisite
  | ran _ _ _ aboveMet executed _ _ rest =>
      exact rest (executed.fits (aboveMet.fits fits)) failed

end Met

theorem Demanded.not_stale {session : Session Instance World} {id : PassId}
    {attempt : Attempt Instance World Bool} (demanded : Demanded registry session id attempt)
    (accepted : registry.Accepted) (fits : session.Fits registry) {error : ScheduleError}
    (failed : attempt.1 = .error error) (pass prerequisite : String) :
    error ≠ .stalePrerequisite pass prerequisite := by
  cases demanded with
  | unknown =>
      cases failed
      simp
  | skipped => cases failed
  | cached => cases failed
  | blocked _ _ _ met =>
      cases failed
      exact met.not_stale accepted fits rfl pass prerequisite
  | ran _ _ _ met executed =>
      have fresh := met.isValid_requirements accepted fits rfl
      exact executed.not_stale fresh failed pass prerequisite

/-- No request to a reachable session is answered with a stale prerequisite. -/
theorem Reachable.perform_ne_stalePrerequisite {session : Session Instance World}
    (reachable : Reachable registry session) (accepted : registry.Accepted) (request : Request)
    (pass prerequisite : String) :
    (session.perform registry request).1 ≠ .error (.stalePrerequisite pass prerequisite) := by
  intro failed
  cases (follows_perform session request).origin _ failed with
  | @demand before id _ moves failed =>
      have fits := fits_of_moves moves reachable.fits
      exact (demanded registry before id).not_stale accepted fits failed pass prerequisite rfl

/-- A run of the standard passes on a function without instructions. -/
theorem Reachable.perform_ne_stalePrerequisite_standard :
    let registry := Registry.ofPasses StandardPass.resolved
    let session := Session.start registry 2
      (Program.ofFunctions [⟨"main", [], [⟨"entry", [], .ret (.imm 0)⟩]⟩])
    registry.Accepted ∧ Reachable registry session ∧
      (session.perform registry .runOnce).1 ≠
        .error (.stalePrerequisite "dead-code-elim" "liveness") := by
  intro registry session
  have accepted : registry.Accepted := StandardPass.accepted StandardPass.registry_eq
  have reachable : Reachable registry session := .start 2 _
  refine ⟨accepted, reachable, ?_⟩
  exact reachable.perform_ne_stalePrerequisite accepted .runOnce "dead-code-elim" "liveness"

end PassScheduler.Session
