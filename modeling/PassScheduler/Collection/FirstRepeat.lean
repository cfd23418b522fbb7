/-!
Contract: the first element of a list that was there before.

Owns: `firstRepeat?`, when it finds nothing, and where what it finds stands.

Does not own: what a repeat means to those who ask.
-/

namespace PassScheduler

/-- The first element that equals an earlier one of the list or one of those already seen. -/
def firstRepeat? {α : Type} [DecidableEq α] (seen : List α) : List α → Option α
  | [] => none
  | first :: rest => if first ∈ seen then some first else firstRepeat? (first :: seen) rest

private theorem firstRepeat?_eq_none_iff_of_seen {α : Type} [DecidableEq α]
    (seen elements : List α) :
    firstRepeat? seen elements = none ↔
      elements.Nodup ∧ ∀ element ∈ elements, element ∉ seen := by
  induction elements generalizing seen with
  | nil => simp [firstRepeat?]
  | cons first rest inductionHypothesis =>
      by_cases repeated : first ∈ seen
      · simp [firstRepeat?, repeated]
      · rw [firstRepeat?, if_neg repeated, inductionHypothesis, List.nodup_cons]
        constructor
        · intro ⟨distinct, fresh⟩
          refine ⟨⟨fun member => fresh first member (by simp), distinct⟩, ?_⟩
          intro element member
          rcases List.mem_cons.1 member with rfl | member
          · exact repeated
          · exact fun old => fresh element member (by simp [old])
        · intro ⟨⟨first_not_mem, distinct⟩, fresh⟩
          refine ⟨distinct, fun element member => ?_⟩
          intro old
          rcases List.mem_cons.1 old with rfl | old
          · exact first_not_mem member
          · exact fresh element (by simp [member]) old

/-- Nothing is found exactly in a list without repeats. -/
theorem firstRepeat?_eq_none_iff {α : Type} [DecidableEq α] (elements : List α) :
    firstRepeat? [] elements = none ↔ elements.Nodup := by
  simp [firstRepeat?_eq_none_iff_of_seen]

private theorem firstRepeat?_eq_some_iff_of_seen {α : Type} [DecidableEq α] {element : α}
    (seen elements : List α) :
    firstRepeat? seen elements = some element ↔
      ∃ before after, elements = before ++ element :: after ∧ before.Nodup ∧
        (∀ earlier ∈ before, earlier ∉ seen) ∧ (element ∈ seen ∨ element ∈ before) := by
  induction elements generalizing seen with
  | nil => simp [firstRepeat?]
  | cons first rest inductionHypothesis =>
      by_cases repeated : first ∈ seen
      · rw [firstRepeat?, if_pos repeated, Option.some.injEq]
        constructor
        · rintro rfl
          exact ⟨[], rest, rfl, List.nodup_nil, by simp, .inl repeated⟩
        · rintro ⟨before, after, split, _, fresh, _⟩
          cases before with
          | nil => exact (List.cons.inj split).1
          | cons head before =>
              obtain ⟨rfl, _⟩ := List.cons.inj split
              exact absurd repeated (fresh first (by simp))
      · rw [firstRepeat?, if_neg repeated, inductionHypothesis]
        constructor
        · rintro ⟨before, after, rfl, distinct, fresh, found⟩
          have notFirst : first ∉ before := fun member => fresh first member (by simp)
          refine ⟨first :: before, after, rfl, List.nodup_cons.2 ⟨notFirst, distinct⟩, ?_, ?_⟩
          · intro earlier member
            rcases List.mem_cons.1 member with rfl | member
            · exact repeated
            · exact fun old => fresh earlier member (by simp [old])
          · rw [List.mem_cons, or_left_comm, ← or_assoc, ← List.mem_cons]
            exact found
        · rintro ⟨before, after, split, distinct, fresh, found⟩
          cases before with
          | nil =>
              obtain ⟨rfl, _⟩ := List.cons.inj split
              exact absurd (found.resolve_right (by simp)) repeated
          | cons head before =>
              obtain ⟨rfl, rfl⟩ := List.cons.inj split
              obtain ⟨notFirst, distinct⟩ := List.nodup_cons.1 distinct
              refine ⟨before, after, rfl, distinct, ?_, ?_⟩
              · intro earlier member old
                rcases List.mem_cons.1 old with rfl | old
                · exact notFirst member
                · exact fresh earlier (by simp [member]) old
              · rw [List.mem_cons, or_left_comm, ← or_assoc, ← List.mem_cons] at found
                exact found

/-- What is found is in the list before, and nothing up to there is so. -/
theorem firstRepeat?_eq_some_iff {α : Type} [DecidableEq α] {elements : List α} {element : α} :
    firstRepeat? [] elements = some element ↔
      ∃ before after, elements = before ++ element :: after ∧ before.Nodup ∧ element ∈ before := by
  simp [firstRepeat?_eq_some_iff_of_seen]

end PassScheduler
