import PassScheduler.Proofs.Schedule.Execution

/-!
Contract: the work on a stack of waiting passes, told as a recursion.

The prerequisites of a pass are met one after the other. One that is not valid has its own
prerequisites met first and then runs; the passes that wait for it meanwhile form the path, the
latest first.

Owns:
- attempts one after the other, up to the first that fails;
- the recursion `meet`, and that working off a stack comes to the same session and the same answer
  as meeting what its top frame still waits for, running that pass and going on below;
- `Met` and `Demanded`, one case for each way in which the recursion and a demand go, and that no
  way changes the level.

Does not own: what either of them guarantees.
-/

namespace PassScheduler.Session

variable {Instance World : Type}

/-- What follows an attempt, unless it has failed. -/
def andThen {α β : Type} (attempt : Attempt Instance World α)
    (next : α → Session Instance World → Attempt Instance World β) : Attempt Instance World β :=
  match attempt with
  | (.error error, session) => (.error error, session)
  | (.ok answer, session) => next answer session

/-- What follows an attempt is answered iff the attempt is and the rest is. -/
theorem andThen_eq_ok {α β : Type} {attempt : Attempt Instance World α}
    {next : α → Session Instance World → Attempt Instance World β} {answer : β}
    {after : Session Instance World} :
    andThen attempt next = (.ok answer, after) ↔
      ∃ first between, attempt = (.ok first, between) ∧
        next first between = (.ok answer, after) := by
  obtain ⟨result, between⟩ := attempt
  cases result with
  | error error => simp [andThen]
  | ok first =>
      constructor
      · intro ended
        exact ⟨first, between, rfl, ended⟩
      · rintro ⟨_, _, ⟨⟩, ended⟩
        exact ended

variable [Pass Instance World]

/-- Meets some prerequisites of the first pass on a path, in order, up to the first failure. -/
def meet (registry : Registry Instance) (path : List PassId) :
    (pending : List PassId) → Session Instance World → Attempt Instance World Unit
  | [], session => (.ok (), session)
  | next :: pending, session =>
      if session.isValid next then
        meet registry path pending (session.recordCached (registry.name next))
      else if next ∈ path then
        (.error (.requirementCycle
          ((path.reverse.dropWhile (· ≠ next) ++ [next]).map registry.name)), session)
      else if path.length < maxDepth then
        match meet registry (next :: path) (registry.requirements next) session with
        | (.error error, session) => (.error error, session)
        | (.ok (), session) =>
            match session.execute registry next with
            | (.error error, session) => (.error error, session)
            | (.ok _, session) => meet registry path pending session
      else
        (.error (.depthExceeded maxDepth), session)
termination_by pending => (maxDepth - path.length, pending.length)
decreasing_by
  · exact .right _ (by simp)
  · exact .left _ _ (by simp only [List.length_cons]; omega)
  · exact .right _ (by simp)

theorem meet_cons (registry : Registry Instance) (path pending : List PassId) (next : PassId)
    (session : Session Instance World) :
    session.meet registry path (next :: pending) =
      if session.isValid next then
        meet registry path pending (session.recordCached (registry.name next))
      else if next ∈ path then
        (.error (.requirementCycle
          ((path.reverse.dropWhile (· ≠ next) ++ [next]).map registry.name)), session)
      else if path.length < maxDepth then
        andThen (meet registry (next :: path) (registry.requirements next) session)
          fun _ session => andThen (session.execute registry next)
            fun _ session => meet registry path pending session
      else
        (.error (.depthExceeded maxDepth), session) := by
  rw [meet]
  congr 3
  cases meet registry (next :: path) (registry.requirements next) session with
  | mk result between =>
      cases result with
      | error error => rfl
      | ok =>
          dsimp only [andThen]
          cases between.execute registry next with
          | mk result after => cases result <;> rfl

/-- Meets the prerequisites of a pass and runs it. -/
def meetAndRun (registry : Registry Instance) (session : Session Instance World)
    (path : List PassId) (id : PassId) (pending : List PassId) : Attempt Instance World Bool :=
  match meet registry (id :: path) pending session with
  | (.error error, session) => (.error error, session)
  | (.ok (), session) => session.execute registry id

theorem meetAndRun_eq (registry : Registry Instance) (session : Session Instance World)
    (path : List PassId) (id : PassId) (pending : List PassId) :
    session.meetAndRun registry path id pending =
      andThen (session.meet registry (id :: path) pending)
        fun _ session => session.execute registry id := by
  unfold meetAndRun
  cases session.meet registry (id :: path) pending with
  | mk result between => cases result <;> rfl

theorem resolve_eq_turn (registry : Registry Instance) (stack : List Frame)
    (session : Session Instance World) :
    resolve registry stack session =
      match turn registry stack session with
      | .stop attempt => attempt
      | .go next after => resolve registry next after := by
  rw [resolve]
  split <;> rename_i moved <;> rw [moved]

private theorem resolve_run (registry : Registry Instance) (id : PassId) (below : List Frame)
    (session : Session Instance World) :
    resolve registry (⟨id, []⟩ :: below) session =
      match session.execute registry id with
      | (.error error, session) => (.error error, session)
      | (.ok changed, session) =>
          if below = [] then (.ok changed, session) else resolve registry below session := by
  rw [resolve_eq_turn, turn]
  generalize session.execute registry id = attempt
  obtain ⟨result, after⟩ := attempt
  cases result with
  | error error => rfl
  | ok changed => by_cases last : below = [] <;> simp only [last, if_true, if_false]

private theorem resolve_next (registry : Registry Instance) (id next : PassId)
    (pending : List PassId) (below : List Frame) (session : Session Instance World) :
    resolve registry (⟨id, next :: pending⟩ :: below) session =
      if session.isValid next then
        resolve registry (⟨id, pending⟩ :: below) (session.recordCached (registry.name next))
      else if next ∈ id :: below.map Frame.pass then
        (.error (.requirementCycle
          ((closedPath (⟨id, pending⟩ :: below) next).map registry.name)), session)
      else if below.length + 1 < maxDepth then
        resolve registry (⟨next, registry.requirements next⟩ :: ⟨id, pending⟩ :: below) session
      else
        (.error (.depthExceeded maxDepth), session) := by
  rw [resolve_eq_turn, turn]
  by_cases valid : session.isValid next
  · rw [if_pos valid, if_pos valid]
  · rw [if_neg valid, if_neg valid]
    by_cases onPath : next ∈ id :: below.map Frame.pass
    · rw [if_pos onPath, if_pos onPath]
    · rw [if_neg onPath, if_neg onPath]
      by_cases shallow : below.length + 1 < maxDepth
      · rw [if_pos shallow, if_pos shallow]
      · rw [if_neg shallow, if_neg shallow]

/-- A stack is worked off from its top: the frame there is seen to as the recursion sees to it, and
unless that fails or was all, the work goes on below. -/
theorem resolve_cons (registry : Registry Instance) (id : PassId) (pending : List PassId)
    (below : List Frame) (session : Session Instance World) :
    resolve registry (⟨id, pending⟩ :: below) session =
      match session.meetAndRun registry (below.map Frame.pass) id pending with
      | (.error error, session) => (.error error, session)
      | (.ok changed, session) =>
          if below = [] then (.ok changed, session) else resolve registry below session := by
  generalize pathIs : id :: below.map Frame.pass = path
  have length : path.length = below.length + 1 := by
    rw [← pathIs]
    simp
  unfold meetAndRun
  rw [pathIs]
  induction path, pending, session using
      @meet.induct Instance World ‹_› registry generalizing id below with
  | case1 path session =>
      rw [resolve_run, meet]
  | case2 path next pending session valid inductionHypothesis =>
      rw [resolve_next, if_pos valid, inductionHypothesis id below pathIs length, meet,
        if_pos valid]
  | case3 path next pending session invalid onPath =>
      have closes : closedPath (⟨id, pending⟩ :: below) next =
          path.reverse.dropWhile (· ≠ next) ++ [next] := by
        rw [closedPath, ← pathIs]
        simp
      rw [resolve_next, if_neg invalid, pathIs, if_pos onPath, meet, if_neg invalid,
        if_pos onPath, closes]
  | case4 path next pending session invalid offPath shallow error after met inductionHypothesis =>
      have above := inductionHypothesis next (⟨id, pending⟩ :: below) (by rw [← pathIs]; rfl)
        (by rw [List.length_cons, length]; rfl)
      simp only [met] at above
      rw [resolve_next, if_neg invalid, pathIs, if_neg offPath, if_pos (length ▸ shallow), above,
        meet, if_neg invalid, if_neg offPath, if_pos shallow]
      simp only [met]
  | case5 path next pending session invalid offPath shallow after met error failed ran
      inductionHypothesis =>
      have above := inductionHypothesis next (⟨id, pending⟩ :: below) (by rw [← pathIs]; rfl)
        (by rw [List.length_cons, length]; rfl)
      simp only [met, ran] at above
      rw [resolve_next, if_neg invalid, pathIs, if_neg offPath, if_pos (length ▸ shallow), above,
        meet, if_neg invalid, if_neg offPath, if_pos shallow]
      simp only [met, ran]
  | case6 path next pending session invalid offPath shallow after met changed last ran
      inductionHypothesis rest =>
      have above := inductionHypothesis next (⟨id, pending⟩ :: below) (by rw [← pathIs]; rfl)
        (by rw [List.length_cons, length]; rfl)
      simp only [met, ran, reduceCtorEq, if_false] at above
      rw [resolve_next, if_neg invalid, pathIs, if_neg offPath, if_pos (length ▸ shallow), above,
        rest id below pathIs length, meet, if_neg invalid, if_neg offPath, if_pos shallow]
      simp only [met, ran]
  | case7 path next pending session invalid offPath deep =>
      rw [resolve_next, if_neg invalid, pathIs, if_neg offPath, if_neg (length ▸ deep), meet,
        if_neg invalid, if_neg offPath, if_neg deep]

/-- A demand that has to run its pass meets the prerequisites first, from an empty path. -/
theorem resolve_eq_meetAndRun (registry : Registry Instance) (session : Session Instance World)
    (id : PassId) (pending : List PassId) :
    resolve registry [⟨id, pending⟩] session = session.meetAndRun registry [] id pending := by
  rw [resolve_cons, List.map_nil]
  generalize session.meetAndRun registry [] id pending = attempt
  obtain ⟨result, after⟩ := attempt
  cases result <;> rfl

/-! ## The ways of the recursion -/

/-- How the prerequisites of the first pass on a path are met. -/
inductive Met (registry : Registry Instance) :
    List PassId → List PassId → Session Instance World → Attempt Instance World Unit → Prop where
  | done {path : List PassId} {session : Session Instance World} :
      Met registry path [] session (.ok (), session)
  | cached {path pending : List PassId} {next : PassId} {session : Session Instance World}
      {attempt : Attempt Instance World Unit} (valid : session.isValid next)
      (rest : Met registry path pending (session.recordCached (registry.name next)) attempt) :
      Met registry path (next :: pending) session attempt
  | circular {path pending : List PassId} {next : PassId} {session : Session Instance World}
      (invalid : ¬ session.isValid next) (onPath : next ∈ path) :
      Met registry path (next :: pending) session
        (.error (.requirementCycle
          ((path.reverse.dropWhile (· ≠ next) ++ [next]).map registry.name)), session)
  | tooDeep {path pending : List PassId} {next : PassId} {session : Session Instance World}
      (invalid : ¬ session.isValid next) (offPath : next ∉ path) (deep : ¬ path.length < maxDepth) :
      Met registry path (next :: pending) session (.error (.depthExceeded maxDepth), session)
  | blocked {path pending : List PassId} {next : PassId} {error : ScheduleError}
      {session after : Session Instance World}
      (invalid : ¬ session.isValid next) (offPath : next ∉ path) (shallow : path.length < maxDepth)
      (above : Met registry (next :: path) (registry.requirements next) session
        (.error error, after)) :
      Met registry path (next :: pending) session (.error error, after)
  | failed {path pending : List PassId} {next : PassId} {error : ScheduleError}
      {session between after : Session Instance World}
      (invalid : ¬ session.isValid next) (offPath : next ∉ path) (shallow : path.length < maxDepth)
      (above : Met registry (next :: path) (registry.requirements next) session (.ok (), between))
      (executed : Executed registry between next (.error error, after)) :
      Met registry path (next :: pending) session (.error error, after)
  | ran {path pending : List PassId} {next : PassId} {changed : Bool}
      {session between after : Session Instance World} {attempt : Attempt Instance World Unit}
      (invalid : ¬ session.isValid next) (offPath : next ∉ path) (shallow : path.length < maxDepth)
      (above : Met registry (next :: path) (registry.requirements next) session (.ok (), between))
      (executed : Executed registry between next (.ok changed, after))
      (rest : Met registry path pending after attempt) :
      Met registry path (next :: pending) session attempt

theorem met (registry : Registry Instance) (path pending : List PassId)
    (session : Session Instance World) :
    Met registry path pending session (session.meet registry path pending) := by
  induction path, pending, session using
      @meet.induct Instance World ‹_› registry with
  | case1 path session =>
      rw [meet]
      exact .done
  | case2 path next pending session valid inductionHypothesis =>
      rw [meet, if_pos valid]
      exact .cached valid inductionHypothesis
  | case3 path next pending session invalid onPath =>
      rw [meet, if_neg invalid, if_pos onPath]
      exact .circular invalid onPath
  | case4 path next pending session invalid offPath shallow error after met above =>
      rw [meet, if_neg invalid, if_neg offPath, if_pos shallow]
      rw [met] at above
      simp only [met]
      exact .blocked invalid offPath shallow above
  | case5 path next pending session invalid offPath shallow between met error after ran above =>
      have last := executed registry between next
      rw [met] at above
      rw [ran] at last
      rw [meet, if_neg invalid, if_neg offPath, if_pos shallow]
      simp only [met, ran]
      exact .failed invalid offPath shallow above last
  | case6 path next pending session invalid offPath shallow between met changed after ran above
      rest =>
      have last := executed registry between next
      rw [met] at above
      rw [ran] at last
      rw [meet, if_neg invalid, if_neg offPath, if_pos shallow]
      simp only [met, ran]
      exact .ran invalid offPath shallow above last rest
  | case7 path next pending session invalid offPath deep =>
      rw [meet, if_neg invalid, if_neg offPath, if_neg deep]
      exact .tooDeep invalid offPath deep

/-- How a demand goes. -/
inductive Demanded (registry : Registry Instance) (session : Session Instance World) (id : PassId) :
    Attempt Instance World Bool → Prop where
  | unknown (missing : registry.descriptor? id = none) :
      Demanded registry session id (.error (.unknownPass (unissuedName id)), session)
  | skipped {descriptor : Descriptor} (found : registry.descriptor? id = some descriptor)
      (gated : ¬ descriptor.isEnabledAt session.level) :
      Demanded registry session id
        (.ok false, (session.note (.demanded descriptor.name)).recordSkipped descriptor)
  | cached {descriptor : Descriptor} (found : registry.descriptor? id = some descriptor)
      (enabled : descriptor.isEnabledAt session.level) (valid : session.isValid id) :
      Demanded registry session id
        (.ok false, (session.note (.demanded descriptor.name)).recordCached descriptor.name)
  | blocked {descriptor : Descriptor} {error : ScheduleError} {after : Session Instance World}
      (found : registry.descriptor? id = some descriptor)
      (enabled : descriptor.isEnabledAt session.level) (invalid : ¬ session.isValid id)
      (met : Met registry [id] (registry.requirements id)
        (session.note (.demanded descriptor.name)) (.error error, after)) :
      Demanded registry session id (.error error, after)
  | ran {descriptor : Descriptor} {between : Session Instance World}
      {attempt : Attempt Instance World Bool}
      (found : registry.descriptor? id = some descriptor)
      (enabled : descriptor.isEnabledAt session.level) (invalid : ¬ session.isValid id)
      (met : Met registry [id] (registry.requirements id)
        (session.note (.demanded descriptor.name)) (.ok (), between))
      (executed : Executed registry between id attempt) :
      Demanded registry session id attempt

theorem demanded (registry : Registry Instance) (session : Session Instance World) (id : PassId) :
    Demanded registry session id (session.demand registry id) := by
  unfold demand
  cases found : registry.descriptor? id with
  | none => exact .unknown found
  | some descriptor =>
      let opened := session.note (.demanded descriptor.name)
      have sameLevel : opened.level = session.level := rfl
      have sameValidity : opened.isValid id = session.isValid id := rfl
      show Demanded registry session id
        (if !descriptor.isEnabledAt opened.level then
          (.ok false, opened.recordSkipped descriptor)
        else if opened.isValid id then
          (.ok false, opened.recordCached descriptor.name)
        else resolve registry [⟨id, registry.requirements id⟩] opened)
      rw [sameLevel, sameValidity]
      by_cases enabled : descriptor.isEnabledAt session.level
      · rw [if_neg (by simp [enabled])]
        by_cases valid : session.isValid id
        · rw [if_pos valid]
          exact .cached found enabled valid
        · have first := met registry [id] (registry.requirements id) opened
          rw [if_neg valid, resolve_eq_meetAndRun, meetAndRun]
          cases ended : opened.meet registry [id] (registry.requirements id) with
          | mk result after =>
              rw [ended] at first
              cases result with
              | error error => exact .blocked found enabled valid first
              | ok => exact .ran found enabled valid first (executed registry after id)
      · rw [if_pos (by simp [enabled])]
        exact .skipped found enabled

/-! ## Levels -/

section Levels

variable {registry : Registry Instance} {session : Session Instance World}

theorem Met.level {path pending : List PassId} {attempt : Attempt Instance World Unit}
    (met : Met registry path pending session attempt) :
    attempt.2.level = session.level := by
  induction met with
  | done => rfl
  | cached _ _ inductionHypothesis => exact inductionHypothesis
  | circular => rfl
  | tooDeep => rfl
  | blocked _ _ _ _ above => exact above
  | failed _ _ _ _ executed above => exact executed.level.trans above
  | ran _ _ _ _ executed _ above rest => exact rest.trans (executed.level.trans above)

theorem Demanded.level {id : PassId} {attempt : Attempt Instance World Bool}
    (demanded : Demanded registry session id attempt) :
    attempt.2.level = session.level := by
  cases demanded with
  | unknown => rfl
  | skipped => rfl
  | cached => rfl
  | blocked _ _ _ met => exact met.level
  | ran _ _ _ met executed => exact executed.level.trans met.level

end Levels

end PassScheduler.Session
