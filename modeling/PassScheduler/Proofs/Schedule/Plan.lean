import PassScheduler.Proofs.Graph.PostOrder
import PassScheduler.Proofs.Schedule.Reordering
import PassScheduler.Proofs.Schedule.Walk

/-!
Contract: the required passes of a pass as a plan for its demand.

The list of required passes holds each of them once. A demand runs a transformation for each pass
that lists it, and an analysis again when it went stale. The first runs of a demand are therefore in
the order of the list, and the runs are the list itself only if the list could be run off as it is.

Owns:
- the order in which a walk comes to its passes for the first time;
- when a list of passes can be run off, each pass once, and that exactly then the demand of a pass
  runs its required passes as they are listed;
- a pass whose demand does not.

Does not own: which demands are answered.
-/

namespace PassScheduler

section EraseDups

variable {α β : Type} [BEq α] [LawfulBEq α] [BEq β] [LawfulBEq β]

/-- Where elements are told apart by their images, the first occurrences of images are the images of
first occurrences. -/
theorem eraseDups_map_of_injOn {f : α → β} {elements : List α}
    (injective : ∀ first ∈ elements, ∀ second ∈ elements, f first = f second → first = second) :
    (elements.map f).eraseDups = elements.eraseDups.map f := by
  match elements with
  | [] => rfl
  | first :: rest =>
      have sameTest : ∀ other ∈ rest, (f other == f first) = (other == first) := by
        intro other isRest
        rw [Bool.eq_iff_iff, beq_iff_eq, beq_iff_eq]
        exact ⟨injective other (List.mem_cons_of_mem first isRest) first List.mem_cons_self,
          congrArg f⟩
      have sameOthers : (rest.map f).filter (fun image => !image == f first) =
          (rest.filter fun other => !other == first).map f := by
        rw [List.filter_map]
        congr 1
        exact List.filter_congr fun other isRest => by simp [sameTest other isRest]
      have othersInjective : ∀ one ∈ rest.filter fun other => !other == first,
          ∀ other ∈ rest.filter fun other => !other == first, f one = f other → one = other :=
        fun one isOne other isOther =>
          injective one (List.mem_cons_of_mem first (List.mem_of_mem_filter isOne)) other
            (List.mem_cons_of_mem first (List.mem_of_mem_filter isOther))
      rw [List.map_cons, List.eraseDups_cons, List.eraseDups_cons, sameOthers,
        eraseDups_map_of_injOn othersInjective, List.map_cons]
termination_by elements.length
decreasing_by exact Nat.lt_succ_of_le (List.length_filter_le _ _)

/-- An element that was not there before is the first of the others. -/
theorem eraseDups_append_cons {before after : List α} {element : α} (new : element ∉ before) :
    (before ++ element :: after).eraseDups =
      before.eraseDups ++ element ::
        (after.filter fun other => !before.contains other && !other == element).eraseDups := by
  have isNew : before.contains element = false := by simpa using new
  rw [List.eraseDups_append, List.removeAll, List.filter_cons_of_pos (by simpa using new),
    List.eraseDups_cons, List.filter_filter]
  simp only [List.elem_eq_contains, Bool.and_comm]

end EraseDups

/-- When a fresh node comes up, the first occurrences of fresh nodes are those of the fresh nodes
before it, the node itself, and those of the nodes behind it that are still fresh then. -/
theorem Search.eraseDups_filter_fresh {α : Type} [DecidableEq α] {fresh before after : List α}
    {node : α} (isFresh : node ∈ fresh) (new : node ∉ before) :
    ((before ++ node :: after).filter (· ∈ fresh)).eraseDups =
      (before.filter (· ∈ without node fresh)).eraseDups ++ node ::
        (after.filter (· ∈ stillFresh (without node fresh)
          (before.filter (· ∈ without node fresh)).eraseDups)).eraseDups := by
  have sameBefore : before.filter (· ∈ without node fresh) = before.filter (· ∈ fresh) := by
    refine List.filter_congr fun other isBefore => ?_
    have distinct : other ≠ node := by
      rintro rfl
      exact new isBefore
    simp [mem_without, distinct]
  have sameAfter : after.filter (· ∈ stillFresh (without node fresh)
        (before.filter (· ∈ fresh)).eraseDups) =
      (after.filter (· ∈ fresh)).filter fun other =>
        !(before.filter (· ∈ fresh)).contains other && !other == node := by
    rw [List.filter_filter]
    refine List.filter_congr fun other _ => ?_
    rw [Bool.eq_iff_iff]
    simp [mem_stillFresh, mem_without]
    tauto
  rw [List.filter_append, List.filter_cons_of_pos (by simpa using isFresh),
    eraseDups_append_cons (by simp [new]), sameBefore, sameAfter]

namespace Registry

variable {Instance : Type} {registry : Registry Instance}

/-! ## First runs -/

/-- The fresh passes are ahead of a walk: they have not run, they do not wait, and no pass that is
over and done with requires them. -/
structure Ahead (registry : Registry Instance) (fresh path done : List PassId) : Prop where
  notDone : ∀ id ∈ done, id ∉ fresh
  notOnPath : ∀ id ∈ path, id ∉ fresh
  closed : ∀ id, id ∉ fresh → id ∉ path → ∀ prerequisite, registry.Requires id prerequisite →
    prerequisite ∉ fresh

namespace Ahead

variable {fresh path done runs pending : List PassId} {next : PassId}

theorem enter (ahead : registry.Ahead fresh path done) (next : PassId) :
    registry.Ahead (Search.without next fresh) (next :: path) done where
  notDone id isDone isFresh := ahead.notDone id isDone (Search.mem_without.1 isFresh).1
  notOnPath id onPath isFresh := by
    obtain ⟨wasFresh, distinct⟩ := Search.mem_without.1 isFresh
    exact ahead.notOnPath id ((List.mem_cons.1 onPath).resolve_left distinct) wasFresh
  closed id notFresh offPath prerequisite requires isFresh := by
    obtain ⟨distinct, offRest⟩ := not_or.1 (mt List.mem_cons.2 offPath)
    refine ahead.closed id (fun wasFresh => ?_) offRest prerequisite requires
      (Search.mem_without.1 isFresh).1
    exact notFresh (Search.mem_without.2 ⟨wasFresh, distinct⟩)

/-- Once the first pass on the path has run, what it led to is not fresh any more. -/
theorem leave (ahead : registry.Ahead fresh (next :: path) done)
    (first : (runs.filter (· ∈ fresh)).eraseDups =
      Search.reachable registry.requirements fresh (registry.requirements next)) :
    registry.Ahead
      (Search.stillFresh fresh
        (Search.reachable registry.requirements fresh (registry.requirements next)))
      path (done ++ runs ++ [next]) where
  notDone id isDone isFresh := by
    obtain ⟨wasFresh, notReached⟩ := Search.mem_stillFresh.1 isFresh
    rcases List.mem_append.1 isDone with isDone | isNext
    · rcases List.mem_append.1 isDone with isDone | isRun
      · exact ahead.notDone id isDone wasFresh
      · rw [← first] at notReached
        exact notReached (List.mem_eraseDups.2 (List.mem_filter.2 ⟨isRun, by simpa using wasFresh⟩))
    · exact ahead.notOnPath id (by simp [List.mem_singleton.1 isNext]) wasFresh
  notOnPath id onPath isFresh :=
    ahead.notOnPath id (List.mem_cons_of_mem _ onPath) (Search.mem_stillFresh.1 isFresh).1
  closed id notFresh offPath prerequisite requires isFresh := by
    obtain ⟨wasFresh, notReached⟩ := Search.mem_stillFresh.1 isFresh
    refine notReached ?_
    by_cases isNext : id = next
    · subst isNext
      exact Search.mem_reachable_of_mem requires wasFresh
    · by_cases idFresh : id ∈ fresh
      · have reached : id ∈ Search.reachable registry.requirements fresh
            (registry.requirements next) := by
          by_contra notReached
          exact notFresh (Search.mem_stillFresh.2 ⟨idFresh, notReached⟩)
        exact Search.mem_reachable_of_next reached requires wasFresh
      · refine absurd wasFresh (ahead.closed id idFresh ?_ prerequisite requires)
        simp [isNext, offPath]

end Ahead

/-- The first runs of a walk are in the order in which a search leaves the fresh passes. -/
theorem Walks.firstRuns {path pending done runs : List PassId}
    (walks : registry.Walks path pending done runs) {fresh : List PassId}
    (ahead : registry.Ahead fresh path done) :
    (runs.filter (· ∈ fresh)).eraseDups =
      Search.reachable registry.requirements fresh pending := by
  induction walks generalizing fresh with
  | done => simp
  | cached good _ inductionHypothesis =>
      rw [Search.reachable_cons_of_notMem (ahead.notDone _ good.mem)]
      exact inductionHypothesis ahead
  | @ran path pending done above rest next _ offPath _ met _ _ aboveFirst restFirst =>
      have aheadAbove := ahead.enter next
      have first := aboveFirst aheadAbove
      have others := restFirst (aheadAbove.leave first)
      by_cases isFresh : next ∈ fresh
      · have notAbove : next ∉ above := fun isAbove =>
          met.offPath next isAbove List.mem_cons_self
        rw [Search.reachable_cons_of_mem isFresh, ← others,
          Search.eraseDups_filter_fresh isFresh notAbove, first]
      · -- A pass that is neither fresh nor waiting requires nothing fresh, so nothing new runs.
        have nothing : Search.reachable registry.requirements fresh (registry.requirements next) =
            [] := Search.reachable_eq_nil (ahead.closed next isFresh offPath)
        rw [Search.without_eq_self isFresh, nothing] at first others
        have noneAbove : above.filter (· ∈ fresh) = [] := by
          refine List.eq_nil_iff_forall_not_mem.2 fun id member => ?_
          have isFirst := List.mem_eraseDups.2 member
          rw [first] at isFirst
          exact List.not_mem_nil isFirst
        rw [Search.stillFresh_nil] at others
        rw [Search.reachable_cons_of_notMem isFresh, ← others, List.filter_append, noneAbove,
          List.filter_cons_of_neg (by simpa using isFresh), List.nil_append]

/-- At the start, all passes are ahead. -/
theorem ahead_ids (registry : Registry Instance) : registry.Ahead registry.ids [] [] := by
  refine ⟨by simp, by simp, fun id isOutside _ prerequisite requires => ?_⟩
  have beyond : registry.size ≤ id := by simpa [ids] using isOutside
  have noPass : registry.pass? id = none := List.getElem?_eq_none beyond
  simp [Requires, requirements, noPass] at requires

/-- A walk from the start comes to its passes for the first time in the order in which they are
listed as required. -/
theorem Walks.eraseDups_eq_requiredPasses {id : PassId} {runs : List PassId}
    (walks : registry.Walks [] [id] [] runs) :
    runs.eraseDups = registry.requiredPasses id := by
  have allFresh : runs.filter (· ∈ registry.ids) = runs :=
    List.filter_eq_self.2 fun other isRun => by simpa [ids] using walks.lt_size other isRun
  rw [← allFresh, walks.firstRuns registry.ahead_ids, requiredPasses]

/-! ## Lists that can be run off -/

/-- A list of passes can be run off as it is, each pass once: no transformation is required by two
of them, and no analysis is upset between its run and that of a pass which requires it. -/
structure Executable (registry : Registry Instance) (plan : List PassId) : Prop where
  single : ∀ first ∈ plan, ∀ second ∈ plan, ∀ id, ¬ registry.isAnalysis id →
    registry.Requires first id → registry.Requires second id → first = second
  timely : ∀ before kept between dependent after,
    plan = before ++ kept :: between ++ dependent :: after → registry.isAnalysis kept →
      registry.Requires dependent kept → ∀ runner ∈ between, ¬ registry.Upsets runner kept

/-- If no pass runs twice on a walk from the start, its runs are a list that can be run off. -/
theorem Walks.executable {id : PassId} {runs : List PassId}
    (walks : registry.Walks [] [id] [] runs) (once : runs.Nodup) :
    registry.Executable runs where
  single first isFirst second isSecond transformation isTransformation firstRequires
      secondRequires := by
    by_contra distinct
    let listings := fun runner => (registry.requirements runner).count transformation
    have atMostOnce : runs.count transformation ≤ 1 := List.nodup_iff_count_le_one.1 once _
    have isOther : second ∈ runs.erase first := (List.mem_erase_of_ne (Ne.symm distinct)).2 isSecond
    have firstLists : 1 ≤ listings first := List.one_le_count_iff.2 firstRequires
    have secondLists : 1 ≤ listings second := List.one_le_count_iff.2 secondRequires
    have counted := walks.count_transformation isTransformation
    rw [← List.sum_map_erase listings isFirst, ← List.sum_map_erase listings isOther] at counted
    omega
  timely before kept between dependent after split isAnalysis requires := by
    have prepared := walks.prepared
    rw [split] at prepared once
    obtain ⟨ready, _⟩ := (prepared_append.1 prepared).2
    obtain ⟨_, earlier, since, sameSplit, spared⟩ := ready kept requires isAnalysis
    have onceBefore : (before ++ kept :: between).Nodup := (List.nodup_append.1 once).1
    have notBefore : kept ∉ before := fun isBefore =>
      (List.nodup_append.1 onceBefore).2.2 kept isBefore kept List.mem_cons_self rfl
    have notBetween : kept ∉ between :=
      (List.nodup_cons.1 (List.nodup_append.1 onceBefore).2.1).1
    rw [List.nil_append] at sameSplit
    obtain ⟨_, _, rfl⟩ := (List.append_cons_inj_of_notMem notBefore notBetween).1 sameSplit
    exact spared

/-! ## Running off a list -/

/-- A walk is about to meet some prerequisites of a waiting pass, and so far its runs are those of a
list. The waiting passes stand further down in it, and whoever has run did so for a listing that was
met before. -/
structure Following (registry : Registry Instance) (plan fresh : List PassId) (waiting : PassId)
    (path pending done tail : List PassId) : Prop where
  split : plan = done ++ Search.reachable registry.requirements fresh pending ++ tail
  planOnce : plan.Nodup
  onTail : ∀ id ∈ waiting :: path, id ∈ tail
  wayOnce : (waiting :: path).Nodup
  ahead : registry.Ahead fresh (waiting :: path) done
  behind : ∀ id < registry.size, id ∉ fresh → id ∉ waiting :: path → id ∈ done
  listed : ∀ id ∈ pending, registry.Requires waiting id
  listedOnce : pending.Nodup
  demanded : ∀ id ∈ done, ∃ dependent, (dependent ∈ done ∨ dependent ∈ waiting :: path) ∧
    registry.Requires dependent id
  byOthers : ∀ id ∈ done, id ∈ pending → ∃ dependent, (dependent ∈ done ∨ dependent ∈ path) ∧
    registry.Requires dependent id

namespace Following

variable {plan fresh path pending done tail : List PassId} {waiting next : PassId}

theorem done_subset (following : registry.Following plan fresh waiting path pending done tail) :
    done ⊆ plan := by
  rw [following.split, List.append_assoc]
  exact List.subset_append_left _ _

theorem way_subset (following : registry.Following plan fresh waiting path pending done tail) :
    waiting :: path ⊆ plan := by
  intro id onWay
  rw [following.split]
  exact List.mem_append_right _ (following.onTail id onWay)

theorem notMem_done_of_way
    (following : registry.Following plan fresh waiting path pending done tail) {id : PassId}
    (onWay : id ∈ waiting :: path) :
    id ∉ done := by
  have once := following.planOnce
  rw [following.split, List.append_assoc] at once
  intro isDone
  exact (List.nodup_append.1 once).2.2 id isDone id
    (List.mem_append_right _ (following.onTail id onWay)) rfl

/-- An analysis that has run is as good as it was: nothing behind its run makes it stale before the
waiting pass has its turn. -/
theorem stillGood (following : registry.Following plan fresh waiting path (next :: pending) done
      tail)
    (executable : registry.Executable plan) (isDone : next ∈ done)
    (isAnalysis : registry.isAnalysis next) :
    registry.StillGood done next := by
  obtain ⟨before, since, isSplit⟩ := List.append_of_mem isDone
  obtain ⟨between, after, tailSplit⟩ :=
    List.append_of_mem (following.onTail waiting List.mem_cons_self)
  have planSplit := following.split
  rw [isSplit, tailSplit] at planSplit
  refine ⟨isAnalysis, before, since, isSplit, fun runner isSince => ?_⟩
  refine executable.timely before next (since ++ Search.reachable registry.requirements fresh
    (next :: pending) ++ between) waiting after (by simpa using planSplit) isAnalysis
    (following.listed next List.mem_cons_self) runner ?_
  simp [isSince]

/-- A transformation has not run for any other pass. -/
theorem notMem_done (following : registry.Following plan fresh waiting path (next :: pending) done
      tail)
    (executable : registry.Executable plan) (isTransformation : ¬ registry.isAnalysis next) :
    next ∉ done := by
  intro isDone
  have waits : waiting ∈ waiting :: path := List.mem_cons_self
  obtain ⟨dependent, member, dependentRequires⟩ :=
    following.byOthers next isDone List.mem_cons_self
  have inPlan : dependent ∈ plan := by
    rcases member with dependentDone | onPath
    · exact following.done_subset dependentDone
    · exact following.way_subset (List.mem_cons_of_mem waiting onPath)
  obtain rfl := executable.single dependent inPlan waiting (following.way_subset waits) next
    isTransformation dependentRequires (following.listed next List.mem_cons_self)
  rcases member with dependentDone | onPath
  · exact following.notMem_done_of_way waits dependentDone
  · exact (List.nodup_cons.1 following.wayOnce).1 onPath

/-- No pass has to run once more while a list is run off. -/
theorem mem_fresh (following : registry.Following plan fresh waiting path (next :: pending) done
      tail)
    (executable : registry.Executable plan) (inside : next < registry.size)
    (offPath : next ∉ waiting :: path) (stale : ¬ registry.StillGood done next) :
    next ∈ fresh := by
  by_contra notFresh
  have isDone := following.behind next inside notFresh offPath
  by_cases isAnalysis : registry.isAnalysis next
  · exact stale (following.stillGood executable isDone isAnalysis)
  · exact following.notMem_done executable isAnalysis isDone

theorem skip (following : registry.Following plan fresh waiting path (next :: pending) done tail)
    (notFresh : next ∉ fresh) :
    registry.Following plan fresh waiting path pending done tail where
  split := by rw [following.split, Search.reachable_cons_of_notMem notFresh]
  planOnce := following.planOnce
  onTail := following.onTail
  wayOnce := following.wayOnce
  ahead := following.ahead
  behind := following.behind
  listed id isPending := following.listed id (List.mem_cons_of_mem next isPending)
  listedOnce := (List.nodup_cons.1 following.listedOnce).2
  demanded := following.demanded
  byOthers id isDone isPending := following.byOthers id isDone (List.mem_cons_of_mem next isPending)

/-- The prerequisites of the next pass are met first. -/
theorem enter (following : registry.Following plan fresh waiting path (next :: pending) done tail)
    (isFresh : next ∈ fresh) (offPath : next ∉ waiting :: path)
    (listedOnce : (registry.requirements next).Nodup) :
    registry.Following plan (Search.without next fresh) next (waiting :: path)
      (registry.requirements next) done
      (next :: Search.reachable registry.requirements
        (Search.stillFresh (Search.without next fresh)
          (Search.reachable registry.requirements (Search.without next fresh)
            (registry.requirements next))) pending ++ tail) where
  split := by
    rw [following.split, Search.reachable_cons_of_mem isFresh]
    simp
  planOnce := following.planOnce
  onTail := by
    refine List.forall_mem_cons.2 ⟨by simp, fun id onPath => ?_⟩
    exact List.mem_append_right _ (following.onTail id onPath)
  wayOnce := List.nodup_cons.2 ⟨offPath, following.wayOnce⟩
  ahead := following.ahead.enter next
  behind id inside notFresh isOff := by
    obtain ⟨distinct, offRest⟩ := not_or.1 (mt List.mem_cons.2 isOff)
    refine following.behind id inside (fun wasFresh => ?_) offRest
    exact notFresh (Search.mem_without.2 ⟨wasFresh, distinct⟩)
  listed _ requires := requires
  listedOnce := listedOnce
  demanded id isDone := by
    obtain ⟨dependent, member, requires⟩ := following.demanded id isDone
    exact ⟨dependent, member.imp_right (List.mem_cons_of_mem next), requires⟩
  byOthers id isDone _ := following.demanded id isDone

/-- Then the next pass has run, and the others are met. -/
theorem leave (following : registry.Following plan fresh waiting path (next :: pending) done tail)
    (isFresh : next ∈ fresh) {above : List PassId}
    (met : registry.Walks (next :: waiting :: path) (registry.requirements next) done above)
    (isAbove : above = Search.reachable registry.requirements (Search.without next fresh)
      (registry.requirements next)) :
    registry.Following plan (Search.stillFresh (Search.without next fresh) above) waiting path
      pending (done ++ above ++ [next]) tail := by
  have forAbove : ∀ id ∈ above, ∃ dependent ∈ done ++ above ++ [next],
      registry.Requires dependent id := by
    intro id member
    rcases met.exists_requires id member with requires | ⟨dependent, isRun, requires⟩
    · exact ⟨next, by simp, requires⟩
    · exact ⟨dependent, by simp [isRun], requires⟩
  obtain ⟨notPending, pendingOnce⟩ := List.nodup_cons.1 following.listedOnce
  refine ⟨?_, following.planOnce, following.onTail, following.wayOnce, ?_, ?_,
    fun id isPending => following.listed id (List.mem_cons_of_mem next isPending), pendingOnce,
    ?_, ?_⟩
  · rw [following.split, Search.reachable_cons_of_mem isFresh, ← isAbove]
    simp
  · have ahead := following.ahead.enter next
    have left := ahead.leave (met.firstRuns ahead)
    rwa [← isAbove] at left
  · intro id inside notFresh offWay
    by_cases isNext : id = next
    · simp [isNext]
    · by_cases member : id ∈ above
      · simp [member]
      · have wasNotFresh : id ∉ fresh := fun wasFresh =>
          notFresh (Search.mem_stillFresh.2 ⟨Search.mem_without.2 ⟨wasFresh, isNext⟩, member⟩)
        simp [following.behind id inside wasNotFresh offWay]
  · intro id isDone
    rcases List.mem_append.1 isDone with isEarlier | isNext
    · rcases List.mem_append.1 isEarlier with wasDone | member
      · obtain ⟨dependent, isThere, requires⟩ := following.demanded id wasDone
        exact ⟨dependent, isThere.imp_left fun member => by simp [member], requires⟩
      · obtain ⟨dependent, isThere, requires⟩ := forAbove id member
        exact ⟨dependent, .inl isThere, requires⟩
    · rw [List.mem_singleton.1 isNext]
      exact ⟨waiting, .inr List.mem_cons_self, following.listed next List.mem_cons_self⟩
  · intro id isDone isPending
    rcases List.mem_append.1 isDone with isEarlier | isNext
    · rcases List.mem_append.1 isEarlier with wasDone | member
      · obtain ⟨dependent, isThere, requires⟩ :=
          following.byOthers id wasDone (List.mem_cons_of_mem next isPending)
        exact ⟨dependent, isThere.imp_left fun member => by simp [member], requires⟩
      · obtain ⟨dependent, isThere, requires⟩ := forAbove id member
        exact ⟨dependent, .inl isThere, requires⟩
    · exact absurd (List.mem_singleton.1 isNext ▸ isPending) notPending

end Following

/-- A walk along a list that can be run off runs what the list has there. -/
theorem Walks.eq_reachable {way pending done runs : List PassId}
    (walks : registry.Walks way pending done runs) {plan : List PassId}
    (executable : registry.Executable plan)
    (listedOnce : ∀ id, (registry.requirements id).Nodup) {fresh path tail : List PassId}
    {waiting : PassId} (isWay : way = waiting :: path)
    (following : registry.Following plan fresh waiting path pending done tail) :
    runs = Search.reachable registry.requirements fresh pending := by
  induction walks generalizing fresh waiting path tail with
  | done => simp
  | cached good _ inductionHypothesis =>
      have notFresh := following.ahead.notDone _ good.mem
      rw [Search.reachable_cons_of_notMem notFresh]
      exact inductionHypothesis isWay (following.skip notFresh)
  | ran stale offPath inside met _ _ above rest =>
      subst isWay
      have isFresh := following.mem_fresh executable inside offPath stale
      have isAbove := above rfl (following.enter isFresh offPath (listedOnce _))
      have isRest := rest rfl (following.leave isFresh met isAbove)
      rw [Search.reachable_cons_of_mem isFresh, ← isAbove, ← isRest]

/-- Where the required passes can be run off as they are listed, they are what runs. -/
theorem Walks.eq_requiredPasses {id : PassId} {runs : List PassId}
    (walks : registry.Walks [] [id] [] runs) (listedOnce : ∀ id, (registry.requirements id).Nodup)
    (executable : registry.Executable (registry.requiredPasses id)) :
    runs = registry.requiredPasses id := by
  cases walks with
  | cached good => exact absurd good (registry.not_stillGood_nil id)
  | @ran _ _ _ above rest _ _ _ inside met _ others =>
      have isFresh : id ∈ registry.ids := List.mem_range.2 inside
      have plan : registry.requiredPasses id =
          Search.reachable registry.requirements (Search.without id registry.ids)
            (registry.requirements id) ++ [id] := by
        rw [requiredPasses, Search.reachable_cons_of_mem isFresh, Search.reachable_nil]
      have following : registry.Following (registry.requiredPasses id)
          (Search.without id registry.ids) id [] (registry.requirements id) [] [id] := {
        split := plan
        planOnce := Search.nodup_reachable _ _ _
        onTail := fun _ isWaiting => isWaiting
        wayOnce := List.nodup_singleton id
        ahead := registry.ahead_ids.enter id
        behind := by
          intro other otherInside notFresh offWay
          refine absurd (Search.mem_without.2 ⟨List.mem_range.2 otherInside, ?_⟩) notFresh
          simpa using offWay
        listed := fun _ requires => requires
        listedOnce := listedOnce id
        demanded := by simp
        byOthers := by simp }
      cases others
      rw [plan, met.eq_reachable executable listedOnce rfl following]

/-- Lists of passes are told apart by the names in them. -/
theorem Resolved.map_name_injective (resolved : registry.Resolved) {first second : List PassId}
    (firstInside : ∀ id ∈ first, id < registry.size)
    (secondInside : ∀ id ∈ second, id < registry.size)
    (sameNames : first.map registry.name = second.map registry.name) :
    first = second := by
  induction first generalizing second with
  | nil => exact (List.map_eq_nil_iff.1 sameNames.symm).symm
  | cons id rest inductionHypothesis =>
      obtain ⟨other, others, rfl, sameName, sameRest⟩ := List.map_eq_cons_iff.1 sameNames.symm
      obtain ⟨inside, restInside⟩ := List.forall_mem_cons.1 firstInside
      obtain ⟨otherInside, othersInside⟩ := List.forall_mem_cons.1 secondInside
      rw [resolved.name_injective inside otherInside sameName.symm,
        inductionHypothesis restInside othersInside sameRest.symm]

/-- No pass lists a prerequisite twice. -/
theorem Resolved.nodup_requirements (resolved : registry.Resolved) (id : PassId) :
    (registry.requirements id).Nodup := by
  obtain ⟨registrations, resolves⟩ := resolved
  cases found : registry.pass? id with
  | none => simp [requirements, found]
  | some pass =>
      have isPass : registrations.descriptor? id = some pass.descriptor := by
        rw [resolves.descriptor?_eq, descriptor?, found]
        rfl
      obtain ⟨registration, isRegistered, isDescriptor⟩ := Option.map_eq_some_iff.1 isPass
      have consistent := (Registrations.registered_iff.1 resolves.registered).2 registration
        (List.mem_of_getElem? isRegistered)
      have unique : Relator.BiUnique fun reference id => registrations.id? reference = some id := by
        constructor
        · intro reference other number isFirst isSecond
          obtain ⟨first, firstThere, rfl⟩ :=
            (Registrations.id?_eq_some_iff resolves.registered).1 isFirst
          obtain ⟨second, secondThere, rfl⟩ :=
            (Registrations.id?_eq_some_iff resolves.registered).1 isSecond
          rw [Option.some.inj (firstThere.symm.trans secondThere)]
        · intro reference first second isFirst isSecond
          exact Option.some.inj (isFirst.symm.trans isSecond)
      have once := (List.rel_nodup unique (resolves.lists found).1).1
        (isDescriptor ▸ consistent.requires_nodup)
      simpa [requirements, found] using once

end Registry

/-! ## Demands from the start -/

namespace Session

variable {Instance World : Type} [Pass Instance World] {registry : Registry Instance}

/-- When the demand of an enabled pass from the start is answered, the passes that ran came to their
first runs in the order in which the pass's required passes are listed. They ran exactly as listed,
each once, if and only if the list can be run off: no transformation in it is required by two of its
passes, and none of its passes makes an analysis stale that a later one requires from before. -/
theorem executed_of_demand_start (accepted : registry.Accepted) {level : Level} {world : World}
    {id : PassId} {descriptor : Descriptor} (found : registry.descriptor? id = some descriptor)
    (enabled : descriptor.isEnabledAt level) {changed : Bool} {session : Session Instance World}
    (answered : (start registry level world).demand registry id = (.ok changed, session)) :
    session.trace.executed.eraseDups = (registry.requiredPasses id).map registry.name ∧
      (session.trace.executed = (registry.requiredPasses id).map registry.name ↔
        registry.Executable (registry.requiredPasses id)) := by
  have resolved := accepted.resolved
  obtain ⟨runs, walks, executed⟩ := walks_of_demand_start resolved found enabled answered
  have firstRuns := walks.eraseDups_eq_requiredPasses
  have runInside := walks.lt_size
  have listedInside : ∀ other ∈ registry.requiredPasses id, other < registry.size := by
    intro other isListed
    rw [← firstRuns] at isListed
    exact runInside other (List.mem_eraseDups.1 isListed)
  refine ⟨?_, ?_, fun executable => ?_⟩
  · rw [executed, eraseDups_map_of_injOn, firstRuns]
    exact fun first isFirst second isSecond =>
      resolved.name_injective (runInside first isFirst) (runInside second isSecond)
  · intro same
    obtain rfl : runs = registry.requiredPasses id :=
      resolved.map_name_injective runInside listedInside (executed.symm.trans same)
    exact walks.executable (Search.nodup_reachable _ _ _)
  · rw [executed, walks.eq_requiredPasses resolved.nodup_requirements executable]

end Session

/-! ## An analysis that is run once more -/

namespace Reporter

/-- An analysis, a transformation that requires it and makes it stale, and a pass that requires the
transformation and then the analysis. -/
def renewed : List (ResolvedPass Reporter) :=
  [⟨⟨.analysis "flow", fun _ => ⟨false⟩⟩, [], []⟩,
    ⟨⟨((Descriptor.transformation "prune").requiring "flow").invalidating "flow",
      fun _ => ⟨true⟩⟩, [0], [0]⟩,
    ⟨⟨((Descriptor.transformation "report").requiring "prune").requiring "flow",
      fun _ => ⟨false⟩⟩, [1, 0], []⟩]

private theorem fault?_renewed : (Registry.ofPasses renewed).fault? = none := by
  cbv

theorem accepted_renewed : (Registry.ofPasses renewed).Accepted := by
  let registrations := registrationsOf renewed
  have registered : registrations.Registered :=
    ((Registrations.Registered.empty.add registrations.accepted[0] rfl).add
      registrations.accepted[1] rfl).add registrations.accepted[2] rfl
  exact ⟨registrations, registered, Registry.build_of_resolved rfl fault?_renewed⟩

/-- What a new session comes to when the last of the passes is demanded. -/
def reported : Attempt Reporter Unit Bool :=
  (Session.start (.ofPasses renewed) 0 ()).demand (.ofPasses renewed) 2

theorem executed_of_demand_start_renewed :
    (Registry.ofPasses renewed).Accepted ∧ reported = (.ok false, reported.2) ∧
      reported.2.trace.executed.eraseDups = ["flow", "prune", "report"] ∧
      ¬ (Registry.ofPasses renewed).Executable [0, 1, 2] := by
  have answered : (Session.start (.ofPasses renewed) 0 ()).demand (.ofPasses renewed) 2 =
      (.ok false, reported.2) := by
    cbv
  have ran : reported.2.trace.executed = ["flow", "prune", "flow", "report"] := by cbv
  have plan : (Registry.ofPasses renewed).requiredPasses 2 = [0, 1, 2] := by cbv
  obtain ⟨firstRuns, asListed⟩ :=
    Session.executed_of_demand_start accepted_renewed rfl rfl answered
  rw [plan] at firstRuns asListed
  refine ⟨accepted_renewed, answered, firstRuns, fun executable => ?_⟩
  have same := asListed.2 executable
  rw [ran] at same
  exact absurd (congrArg List.length same) (by simp)

/-- The analysis runs twice and is listed once: were the list run off as it is, the last pass would
find it stale. -/
theorem executed_ne_requiredPasses :
    (Registry.ofPasses renewed).Accepted ∧ 2 ∈ (Registry.ofPasses renewed).candidates 0 ∧
      reported.1 = .ok false ∧
      reported.2.trace.executed = ["flow", "prune", "flow", "report"] ∧
      ((Registry.ofPasses renewed).requiredPasses 2).map (Registry.ofPasses renewed).name =
        ["flow", "prune", "report"] := by
  refine ⟨accepted_renewed, by decide, ?_, ?_, ?_⟩
  · cbv
  · cbv
  · cbv

end Reporter

end PassScheduler
