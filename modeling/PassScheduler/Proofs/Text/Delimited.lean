import Mathlib.Data.List.Basic
import PassScheduler.Proofs.Source.Spelling

/-!
Contract: texts in which one can see where a part ends.

The text of a value is delimited if, in front of whatever may follow, no other value has a text that
begins alike. A text that is put together from such parts determines them, one after the other.

Owns:
- delimited texts, and rows of them up to something that no text of a value begins with;
- rows with commas in between, up to a character that closes them;
- decimal numbers, which end where the digits do.

Does not own: the formats that are put together from such parts.
-/

namespace PassScheduler.Text

open Lexer (Avoids takeWhile_run)

/-- Where the text of a value stands, in front of something that may follow it, neither another value
nor another cut is possible. -/
def Delimited {α : Type} (follows : List Char → Prop) (text : α → List Char) (value : α) : Prop :=
  ∀ other rest otherRest, follows rest → follows otherRest →
    text value ++ rest = text other ++ otherRest → value = other ∧ rest = otherRest

/-- A row of delimited texts is read off from the left, up to a rest that begins no text. -/
theorem Delimited.flatMap {α : Type} {follows : List Char → Prop} {text : α → List Char}
    (goesOn : ∀ value more, follows (text value ++ more)) {rest otherRest : List Char}
    (isLast : follows rest) (isLastToo : follows otherRest)
    (apart : ∀ value more, text value ++ more ≠ rest)
    (apartToo : ∀ value more, text value ++ more ≠ otherRest) {values others : List α}
    (each : ∀ value ∈ values, Delimited follows text value)
    (same : values.flatMap text ++ rest = others.flatMap text ++ otherRest) :
    values = others ∧ rest = otherRest := by
  have followed : ∀ {tail}, follows tail → ∀ values : List α,
      follows (values.flatMap text ++ tail) := by
    intro tail isTail values
    cases values with
    | nil => exact isTail
    | cons value more =>
        rw [List.flatMap_cons, List.append_assoc]
        exact goesOn _ _
  induction values generalizing others with
  | nil =>
      cases others with
      | nil => exact ⟨rfl, same⟩
      | cons other more =>
          rw [List.flatMap_cons, List.append_assoc] at same
          exact absurd same.symm (apart other _)
  | cons value more inductionHypothesis =>
      rw [List.flatMap_cons, List.append_assoc] at same
      cases others with
      | nil => exact absurd same (apartToo value _)
      | cons other moreOther =>
          rw [List.flatMap_cons, List.append_assoc] at same
          obtain ⟨rfl, sameMore⟩ := each value (by simp) other _ _ (followed isLast more)
            (followed isLastToo moreOther) same
          obtain ⟨rfl, isRest⟩ :=
            inductionHypothesis (fun value member => each value (by simp [member])) sameMore
          exact ⟨rfl, isRest⟩

/-- The texts of values, with commas in between. -/
def separated {α : Type} (text : α → List Char) : List α → List Char
  | [] => []
  | first :: rest => text first ++ rest.flatMap fun value => ',' :: text value

@[simp]
theorem separated_nil {α : Type} (text : α → List Char) : separated text [] = [] :=
  rfl

theorem separated_cons {α : Type} (text : α → List Char) (first : α) (rest : List α) :
    separated text (first :: rest) = text first ++ rest.flatMap fun value => ',' :: text value :=
  rfl

/-- A row with commas in between is read off up to a character that closes it. -/
theorem Delimited.separated {α : Type} {follows : List Char → Prop} {text : α → List Char}
    {close : Char} (noComma : close ≠ ',') (goesOn : ∀ rest, follows (',' :: rest))
    (ends : ∀ rest, follows (close :: rest))
    (apart : ∀ value more rest, text value ++ more ≠ close :: rest) {values others : List α}
    {rest otherRest : List Char} (each : ∀ value ∈ values, Delimited follows text value)
    (same : Text.separated text values ++ close :: rest =
      Text.separated text others ++ close :: otherRest) :
    values = others ∧ rest = otherRest := by
  have followed : ∀ tail (values : List α),
      follows ((values.flatMap fun value => ',' :: text value) ++ close :: tail) := by
    intro tail values
    cases values with
    | nil => exact ends tail
    | cons value more =>
        rw [List.flatMap_cons, List.append_assoc, List.cons_append]
        exact goesOn _
  cases values with
  | nil =>
      cases others with
      | nil => simpa using same
      | cons other more =>
          rw [separated_cons, List.append_assoc] at same
          exact absurd same.symm (apart other _ _)
  | cons value more =>
      rw [separated_cons, List.append_assoc] at same
      cases others with
      | nil => exact absurd same (apart value _ _)
      | cons other moreOther =>
          rw [separated_cons, List.append_assoc] at same
          obtain ⟨rfl, sameMore⟩ := each value (by simp) other _ _ (followed rest more)
            (followed otherRest moreOther) same
          have eachMore : ∀ value ∈ more, Delimited follows (fun value => ',' :: text value) value :=
            fun value member other rest otherRest follow followToo same =>
              each value (by simp [member]) other rest otherRest follow followToo
                (List.tail_eq_of_cons_eq same)
          obtain ⟨rfl, isRest⟩ := Delimited.flatMap (fun _ _ => goesOn _) (ends rest)
            (ends otherRest) (by simp [noComma.symm]) (by simp [noComma.symm]) eachMore sameMore
          exact ⟨rfl, List.tail_eq_of_cons_eq isRest⟩

/-- The digits of a number end where what follows is no digit. -/
theorem delimited_digits (n : Nat) : Delimited (Avoids Char.isDigit) (Nat.toDigits 10) n := by
  intro other rest otherRest ends endsToo same
  have digits : ∀ n, ∀ c ∈ Nat.toDigits 10 n, c.isDigit :=
    fun n c => Nat.isDigit_of_mem_toDigits (by decide) (by decide)
  have sameDigits : Nat.toDigits 10 n = Nat.toDigits 10 other := by
    rw [← takeWhile_run (digits n) ends, same, takeWhile_run (digits other) endsToo]
  have sameNumber : n = other := by
    rw [← Nat.ofDigitChars_ten_toDigits (n := n), sameDigits, Nat.ofDigitChars_ten_toDigits]
  rw [sameDigits] at same
  exact ⟨sameNumber, List.append_cancel_left same⟩

end PassScheduler.Text
