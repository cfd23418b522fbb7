import Mathlib.Data.Finset.Card
import Mathlib.Order.Bounds.Basic
import PassScheduler.Proofs.Graph.PostOrder
import PassScheduler.Proofs.Transform.WellFormedness

/-!
Contract: the live values are the least set that is closed under need.

Nothing is asked of the function: values may be defined in a circle, by themselves, more than once
or not at all.

Owns:
- what it means that a set of values is closed under need, said of the instruction that defines a
  value last;
- that the live values form the least such set, and are listed in ascending order;
- a worklist that looks at one value at a time, and that it ends with the live values.

Does not own: what is done with instructions whose result is not live.
-/

namespace PassScheduler.Function

variable {function : Function}

/-! ## Sets that are closed under need -/

/-- An instruction behind which no other defines its destination. -/
def DefinesLast (function : Function) (inst : Inst) : Prop :=
  ∃ before after, function.insts = before ++ inst :: after ∧
    ∀ later ∈ after, later.dest ≠ inst.dest

/-- A set holds every value that a terminator uses and, with each of its values, those that the
last instruction uses by which that value is defined. -/
structure ClosedUnderNeed (function : Function) (values : Set ValueId) : Prop where
  terminators : ∀ block ∈ function.blocks, ∀ id, .value id ∈ block.term.operands → id ∈ values
  definitions : ∀ inst, function.DefinesLast inst → inst.dest ∈ values →
    ∀ used, .value used ∈ inst.op.operands → used ∈ values

theorem find?_reverse_eq_some_iff {id : ValueId} {inst : Inst} :
    (function.insts.reverse.find? fun other => other.dest = id) = some inst ↔
      function.DefinesLast inst ∧ inst.dest = id := by
  rw [List.find?_eq_some_iff_append]
  constructor
  · rintro ⟨isDest, after, before, split, noneAfter⟩
    obtain rfl : inst.dest = id := of_decide_eq_true isDest
    refine ⟨⟨before.reverse, after.reverse, ?_, fun later isAfter => ?_⟩, rfl⟩
    · rw [← List.reverse_reverse function.insts, split]
      simp
    · simpa using noneAfter later (List.mem_reverse.1 isAfter)
  · rintro ⟨⟨before, after, split, noneAfter⟩, rfl⟩
    refine ⟨by simp, after.reverse, before.reverse, by simp [split], fun later isAfter => ?_⟩
    simpa using noneAfter later (List.mem_reverse.1 isAfter)

theorem mem_neededFor {id needed : ValueId} :
    needed ∈ function.neededFor id ↔
      ∃ inst, function.DefinesLast inst ∧ inst.dest = id ∧ .value needed ∈ inst.op.operands := by
  unfold neededFor definingOp?
  cases found : function.insts.reverse.find? fun other => other.dest = id with
  | none =>
      simp only [Option.map_none, List.not_mem_nil, false_iff]
      rintro ⟨inst, last, isDest, _⟩
      rw [find?_reverse_eq_some_iff.2 ⟨last, isDest⟩] at found
      cases found
  | some inst =>
      obtain ⟨last, isDest⟩ := find?_reverse_eq_some_iff.1 found
      simp only [Option.map_some, mem_valuesIn]
      constructor
      · intro used
        exact ⟨inst, last, isDest, used⟩
      · rintro ⟨other, otherLast, otherDest, used⟩
        rw [find?_reverse_eq_some_iff.2 ⟨otherLast, otherDest⟩] at found
        cases found
        exact used

theorem closedUnderNeed_iff {values : Set ValueId} :
    function.ClosedUnderNeed values ↔
      (∀ id ∈ function.demandedValues, id ∈ values) ∧
        ∀ id ∈ values, ∀ needed ∈ function.neededFor id, needed ∈ values := by
  constructor
  · rintro ⟨terminators, definitions⟩
    constructor
    · intro id isDemanded
      obtain ⟨block, isBlock, used⟩ := mem_demandedValues.1 isDemanded
      exact terminators block isBlock id (mem_valuesIn.1 used)
    · intro id member needed isNeeded
      obtain ⟨inst, last, rfl, used⟩ := mem_neededFor.1 isNeeded
      exact definitions inst last member needed used
  · rintro ⟨demanded, closed⟩
    constructor
    · intro block isBlock id used
      exact demanded id (mem_demandedValues.2 ⟨block, isBlock, mem_valuesIn.2 used⟩)
    · intro inst last member used isUsed
      exact closed inst.dest member used (mem_neededFor.2 ⟨inst, last, rfl, isUsed⟩)

/-! ## The live values -/

theorem isLeast_liveValues (function : Function) :
    IsLeast {values | function.ClosedUnderNeed values} {id | id ∈ function.liveValues} := by
  constructor
  · refine closedUnderNeed_iff.2 ⟨fun id isDemanded => ?_, fun id live needed isNeeded => ?_⟩
    · exact mem_liveValues.2 ⟨id, isDemanded, .refl⟩
    · obtain ⟨start, isDemanded, way⟩ := mem_liveValues.1 live
      exact mem_liveValues.2 ⟨start, isDemanded, way.tail isNeeded⟩
  · intro values isClosed id live
    obtain ⟨demanded, closed⟩ := closedUnderNeed_iff.1 isClosed
    obtain ⟨start, isDemanded, way⟩ := mem_liveValues.1 live
    clear live
    induction way with
    | refl => exact demanded start isDemanded
    | tail _ isNeeded inductionHypothesis => exact closed _ inductionHypothesis _ isNeeded

theorem nodup_liveValues (function : Function) : function.liveValues.Nodup :=
  (List.mergeSort_perm _ _).nodup_iff.2 (Search.nodup_reachable _ _ _)

/-- The live values are listed in ascending order, each once. -/
theorem pairwise_liveValues (function : Function) :
    function.liveValues.Pairwise fun first second => first.index < second.index := by
  have inOrder : function.liveValues.Pairwise fun first second =>
      decide (first.index ≤ second.index) = true :=
    List.pairwise_mergeSort (fun first second third => by simpa using UInt32.le_trans)
      (fun first second => by simpa using UInt32.le_total _ _) _
  have sorted : function.liveValues.Pairwise fun first second => first.index ≤ second.index :=
    inOrder.imp of_decide_eq_true
  refine (sorted.and (nodup_liveValues function)).imp ?_
  rintro ⟨first⟩ ⟨second⟩ ⟨atMost, distinct⟩
  exact UInt32.lt_of_le_of_ne atMost fun same => distinct (congrArg ValueId.mk same)

/-! ## A worklist -/

theorem neededFor_subset_usedValues (function : Function) (id : ValueId) :
    function.neededFor id ⊆ function.usedValues := by
  intro needed isNeeded
  obtain ⟨inst, member, _, used⟩ := exists_of_neededFor isNeeded
  obtain ⟨block, isBlock, inBlock⟩ := List.mem_flatMap.1 member
  exact mem_usedValues.2 ⟨block, isBlock, .inl ⟨inst, inBlock, used⟩⟩

/-- The values that may still be found. -/
def unfound (function : Function) (found pending : List ValueId) : Finset ValueId :=
  (function.usedValues ++ pending).toFinset \ found.toFinset

private theorem unfound_known (function : Function) {found pending : List ValueId} {id : ValueId}
    (known : id ∈ found) :
    function.unfound found (id :: pending) = function.unfound found pending := by
  ext other
  simp only [unfound, Finset.mem_sdiff, List.mem_toFinset, List.mem_append, List.mem_cons]
  constructor
  · rintro ⟨used | rfl | isPending, unknown⟩
    · exact ⟨.inl used, unknown⟩
    · exact absurd known unknown
    · exact ⟨.inr isPending, unknown⟩
  · rintro ⟨used | isPending, unknown⟩
    · exact ⟨.inl used, unknown⟩
    · exact ⟨.inr (.inr isPending), unknown⟩

private theorem unfound_new (function : Function) {found pending : List ValueId} {id : ValueId}
    (new : id ∉ found) :
    function.unfound (id :: found) ((function.neededFor id).reverse ++ pending) ⊂
      function.unfound found (id :: pending) := by
  rw [Finset.ssubset_iff_of_subset]
  · exact ⟨id, by simp [unfound, new], by simp [unfound]⟩
  · intro other
    simp only [unfound, Finset.mem_sdiff, List.mem_toFinset, List.mem_append, List.mem_cons,
      List.mem_reverse, not_or]
    rintro ⟨used | isNeeded | isPending, _, unknown⟩
    · exact ⟨.inl used, unknown⟩
    · exact ⟨.inl (function.neededFor_subset_usedValues id isNeeded), unknown⟩
    · exact ⟨.inr (.inr isPending), unknown⟩

/-- Looks at the pending values one after the other. One that was found before is dropped; any other
is found, and what it is computed from becomes pending ahead of the rest, the last of it first. -/
def gather (function : Function) : (found pending : List ValueId) → List ValueId
  | found, [] => found
  | found, id :: pending =>
      if id ∈ found then
        function.gather found pending
      else
        function.gather (id :: found) ((function.neededFor id).reverse ++ pending)
termination_by found pending => ((function.unfound found pending).card, pending.length)
decreasing_by
  · rename_i known
    rw [function.unfound_known known]
    exact .right _ (by simp)
  · rename_i new
    exact .left _ _ (Finset.card_lt_card (function.unfound_new new))

/-- What holds at every turn: nothing was found twice, what was found or is pending is live, and
nothing that terminators or found values need was lost. -/
structure Gathering (function : Function) (found pending : List ValueId) : Prop where
  once : found.Nodup
  live : ∀ id, id ∈ found ∨ id ∈ pending → id ∈ function.liveValues
  demanded : ∀ id ∈ function.demandedValues, id ∈ found ∨ id ∈ pending
  closed : ∀ id ∈ found, ∀ needed ∈ function.neededFor id, needed ∈ found ∨ needed ∈ pending

namespace Gathering

variable {found pending : List ValueId} {id : ValueId}

theorem start (function : Function) : function.Gathering [] function.demandedValues.reverse where
  once := List.nodup_nil
  live id member := by
    have isDemanded : id ∈ function.demandedValues := by simpa using member
    exact mem_liveValues.2 ⟨id, isDemanded, .refl⟩
  demanded := by simp
  closed := by simp

theorem drop (gathering : function.Gathering found (id :: pending)) (known : id ∈ found) :
    function.Gathering found pending := by
  have kept : ∀ {other}, other ∈ found ∨ other ∈ id :: pending →
      other ∈ found ∨ other ∈ pending := by
    rintro other (isFound | member)
    · exact .inl isFound
    · rcases List.mem_cons.1 member with rfl | isPending
      · exact .inl known
      · exact .inr isPending
  exact {
    once := gathering.once
    live := fun other member => gathering.live other (member.imp_right (List.mem_cons_of_mem id))
    demanded := fun other isDemanded => kept (gathering.demanded other isDemanded)
    closed := fun other isFound needed isNeeded =>
      kept (gathering.closed other isFound needed isNeeded) }

theorem look (gathering : function.Gathering found (id :: pending)) (new : id ∉ found) :
    function.Gathering (id :: found) ((function.neededFor id).reverse ++ pending) := by
  have isLive := gathering.live id (.inr List.mem_cons_self)
  have kept : ∀ {other}, other ∈ found ∨ other ∈ id :: pending →
      other ∈ id :: found ∨ other ∈ (function.neededFor id).reverse ++ pending := by
    rintro other (isFound | member)
    · exact .inl (List.mem_cons_of_mem id isFound)
    · rcases List.mem_cons.1 member with rfl | isPending
      · exact .inl List.mem_cons_self
      · exact .inr (List.mem_append_right _ isPending)
  refine ⟨List.nodup_cons.2 ⟨new, gathering.once⟩, ?_, ?_, ?_⟩
  · intro other member
    simp only [List.mem_cons, List.mem_append, List.mem_reverse] at member
    rcases member with (rfl | isFound) | isNeeded | isPending
    · exact isLive
    · exact gathering.live other (.inl isFound)
    · obtain ⟨start, isDemanded, way⟩ := mem_liveValues.1 isLive
      exact mem_liveValues.2 ⟨start, isDemanded, way.tail isNeeded⟩
    · exact gathering.live other (.inr (List.mem_cons_of_mem id isPending))
  · exact fun other isDemanded => kept (gathering.demanded other isDemanded)
  · intro other isFound needed isNeeded
    rcases List.mem_cons.1 isFound with rfl | wasFound
    · exact .inr (List.mem_append_left _ (List.mem_reverse.2 isNeeded))
    · exact kept (gathering.closed other wasFound needed isNeeded)

/-- The worklist runs empty, and nothing of this is lost on the way. -/
theorem gather (gathering : function.Gathering found pending) :
    function.Gathering (function.gather found pending) [] := by
  induction found, pending using Function.gather.induct function with
  | case1 found => rwa [Function.gather]
  | case2 found id pending known inductionHypothesis =>
      rw [Function.gather, if_pos known]
      exact inductionHypothesis (gathering.drop known)
  | case3 found id pending new inductionHypothesis =>
      rw [Function.gather, if_neg new]
      exact inductionHypothesis (gathering.look new)

end Gathering

/-- The worklist that starts from the values of terminators ends with the live values, each found
once. They are listed in ascending order, and they are the least set that is closed under need. -/
theorem gather_perm_least (function : Function) :
    (function.gather [] function.demandedValues.reverse).Perm function.liveValues ∧
      (function.liveValues.Pairwise fun first second => first.index < second.index) ∧
      IsLeast {values | function.ClosedUnderNeed values} {id | id ∈ function.liveValues} := by
  have least := isLeast_liveValues function
  have ended := (Gathering.start function).gather
  have isClosed : function.ClosedUnderNeed
      {id | id ∈ function.gather [] function.demandedValues.reverse} := by
    refine closedUnderNeed_iff.2 ⟨fun id isDemanded => ?_, fun id isFound needed isNeeded => ?_⟩
    · simpa using ended.demanded id isDemanded
    · simpa using ended.closed id isFound needed isNeeded
  refine ⟨?_, pairwise_liveValues function, least⟩
  rw [List.perm_ext_iff_of_nodup ended.once (nodup_liveValues function)]
  intro id
  exact ⟨fun isFound => ended.live id (.inl isFound), fun isLive => least.2 isClosed isLive⟩

/-- One value is defined by itself, one twice, of which the last counts, and one not at all. -/
example :
    liveValues ⟨"f", [], [⟨"entry", [⟨⟨3⟩, .copy (.value ⟨7⟩)⟩, ⟨⟨1⟩, .copy (.value ⟨1⟩)⟩,
      ⟨⟨3⟩, .binary .add (.value ⟨9⟩) (.value ⟨1⟩)⟩, ⟨⟨4⟩, .const 0⟩], .ret (.value ⟨3⟩)⟩]⟩ =
      [⟨1⟩, ⟨3⟩, ⟨9⟩] := by
  cbv

end PassScheduler.Function
