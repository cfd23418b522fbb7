import Mathlib.Data.List.Basic

/-!
Contract: where an element stands in a list that was put together.

Laws about journals, runs and orders speak of every way to take a list apart at an element. When
such a list grows, the element is an old one or a new one.

Owns: the ways to take an append apart at an element.

Does not own: what such a law says of the parts.
-/

namespace PassScheduler

variable {α : Type}

theorem append_eq_append_cons_iff {front back before after : List α} {middle : α} :
    front ++ back = before ++ middle :: after ↔
      (∃ between, front = before ++ middle :: between ∧ after = between ++ back) ∨
        ∃ between, before = front ++ between ∧ back = between ++ middle :: after := by
  constructor
  · intro split
    rcases List.append_eq_append_iff.1 split with ⟨between, rfl, rest⟩ | ⟨between, rfl, rest⟩
    · exact .inr ⟨between, rfl, rest⟩
    · -- What is left of the front starts with the element, unless nothing is left.
      cases between with
      | nil => exact .inr ⟨[], by simp, rest.symm⟩
      | cons first between =>
          obtain ⟨rfl, rfl⟩ := List.cons.inj rest
          exact .inl ⟨between, rfl, rfl⟩
  · rintro (⟨between, rfl, rfl⟩ | ⟨between, rfl, rfl⟩) <;> simp

/-- The element is the last of all, or it stands before that. -/
theorem concat_eq_append_cons_iff {front before after : List α} {last middle : α} :
    front ++ [last] = before ++ middle :: after ↔
      (∃ between, front = before ++ middle :: between ∧ after = between ++ [last]) ∨
        before = front ∧ middle = last ∧ after = [] := by
  rw [append_eq_append_cons_iff]
  refine or_congr_right ⟨?_, ?_⟩
  · rintro ⟨between, rfl, isLast⟩
    cases between with
    | nil =>
        obtain ⟨rfl, rfl⟩ := List.cons.inj isLast
        exact ⟨List.append_nil _, rfl, rfl⟩
    | cons => simp at isLast
  · rintro ⟨rfl, rfl, rfl⟩
    exact ⟨[], by simp, rfl⟩

end PassScheduler
