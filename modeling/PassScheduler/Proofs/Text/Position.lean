import Mathlib.Data.List.Induction
import Mathlib.Data.String.Basic
import PassScheduler.Proofs.Source.Lexing
import PassScheduler.Text.Position

/-!
Contract: byte offsets of a text and positions in it say the same.

A byte offset has a position exactly if it splits no character. What stands before an offset grows
with the offset, one character at a time, and each character moves the position on; so positions
come in the order of the offsets, and no two offsets share one.

Owns:
- the offsets that split no character, and the characters before them;
- the order of positions, and what the line and the column of an offset count.

Does not own: which offsets a reader reports.
-/

namespace PassScheduler

/-- A byte offset between two characters of a text or at one of its ends. -/
def Boundary (text : String) (offset : Nat) : Prop :=
  (String.Pos.Raw.mk offset).IsValid text

/-! ## The characters before an offset -/

theorem byteLength_toList (text : String) : byteLength text.toList = text.utf8ByteSize := by
  have counted : ∀ chars : List Char, byteLength chars = String.utf8Len chars := by
    intro chars
    induction chars with
    | nil => rfl
    | cons c rest inductionHypothesis =>
        rw [byteLength, String.utf8Len_cons, inductionHypothesis, Nat.add_comm]
  rw [counted, ← String.utf8ByteSize_ofList, String.ofList_toList]

theorem boundary_utf8ByteSize (before after : String) :
    Boundary (before ++ after) before.utf8ByteSize :=
  String.Pos.Raw.isValid_iff_exists_append.2 ⟨before, after, rfl, rfl⟩

theorem Boundary.split {text : String} {offset : Nat} (boundary : Boundary text offset) :
    ∃ before after, text = before ++ after ∧ offset = before.utf8ByteSize := by
  obtain ⟨before, after, split, ends⟩ := String.Pos.Raw.isValid_iff_exists_append.1 boundary
  exact ⟨before, after, split, congrArg String.Pos.Raw.byteIdx ends⟩

theorem boundary_byteLength {text : String} {before after : List Char}
    (split : text.toList = before ++ after) :
    Boundary text (byteLength before) := by
  have parts : text = .ofList before ++ .ofList after := by
    rw [← String.ofList_append, ← split, String.ofList_toList]
  rw [parts, ← String.toList_ofList (l := before), byteLength_toList]
  simpa using boundary_utf8ByteSize (.ofList before) (.ofList after)

theorem charsBefore?_append (before after : List Char) :
    charsBefore? (before ++ after) (byteLength before) = some before := by
  induction before with
  | nil => simp [byteLength, charsBefore?]
  | cons c rest inductionHypothesis =>
      have positive := c.utf8Size_pos
      have more : c.utf8Size ≤ byteLength (c :: rest) := by simp [byteLength]
      have left : byteLength (c :: rest) - c.utf8Size = byteLength rest := by simp [byteLength]
      rw [List.cons_append, charsBefore?, if_pos more, left, inductionHypothesis]
      · rfl
      · simp only [byteLength]
        omega

/-- An offset with characters before it splits none, unless it is beyond the end. -/
theorem append_of_charsBefore? {chars before : List Char} {offset : Nat}
    (found : charsBefore? chars offset = some before) :
    ∃ after, chars = before ++ after ∧
      (offset = byteLength before ∨ after = [] ∧ byteLength before < offset) := by
  fun_induction charsBefore? chars offset generalizing before with
  | case1 chars =>
      cases found
      exact ⟨chars, rfl, .inl rfl⟩
  | case2 offset positive =>
      cases found
      exact ⟨[], rfl, .inr ⟨rfl, Nat.pos_of_ne_zero positive⟩⟩
  | case3 c rest offset positive more inductionHypothesis =>
      obtain ⟨inner, isInner, rfl⟩ := Option.map_eq_some_iff.1 found
      obtain ⟨after, rfl, place⟩ := inductionHypothesis isInner
      refine ⟨after, rfl, ?_⟩
      rw [byteLength]
      exact place.imp (by omega) (And.imp_right (by omega))
  | case4 => cases found

theorem charsBefore?_of_le {chars : List Char} {offset : Nat}
    (beyond : byteLength chars ≤ offset) :
    charsBefore? chars offset = some chars := by
  fun_induction charsBefore? chars offset with
  | case1 chars =>
      cases chars with
      | nil => rfl
      | cons c rest =>
          have positive := c.utf8Size_pos
          simp only [byteLength] at beyond
          omega
  | case2 => rfl
  | case3 c rest offset positive more inductionHypothesis =>
      simp only [byteLength] at beyond
      rw [inductionHypothesis (by omega)]
      rfl
  | case4 c rest offset positive less =>
      simp only [byteLength] at beyond
      omega

namespace Position

/-! ## Positions after characters -/

/-- Lines come first, columns count within a line. -/
def Before (first second : Position) : Prop :=
  first.line < second.line ∨ first.line = second.line ∧ first.column < second.column

theorem Before.trans {first second third : Position} (left : first.Before second)
    (right : second.Before third) :
    first.Before third := by
  unfold Before at *
  omega

theorem Before.irrefl (position : Position) : ¬ position.Before position := by
  unfold Before
  omega

/-- The place at the end of some characters: newlines separate the lines, and the last line is what
follows the last of them. -/
structure EndOf (chars : List Char) (position : Position) : Prop where
  line : position.line = 1 + chars.count '\n'
  column : ∃ earlier lastLine, chars = earlier ++ lastLine ∧
    (earlier = [] ∨ earlier.getLast? = some '\n') ∧ '\n' ∉ lastLine ∧
      position.column = 1 + lastLine.length

theorem after_newline (chars : List Char) :
    after (chars ++ ['\n']) = ⟨(after chars).line + 1, 1⟩ := by
  simp [after]

theorem after_other (chars : List Char) {c : Char} (other : c ≠ '\n') :
    after (chars ++ [c]) = ⟨(after chars).line, (after chars).column + 1⟩ := by
  simp [after, other]

/-- Every character moves the position on. -/
theorem before_after_append_singleton (chars : List Char) (c : Char) :
    (after chars).Before (after (chars ++ [c])) := by
  by_cases newline : c = '\n'
  · subst newline
    rw [after_newline]
    exact .inl (Nat.lt_succ_self _)
  · rw [after_other chars newline]
    exact .inr ⟨rfl, Nat.lt_succ_self _⟩

theorem before_after_append (chars : List Char) {more : List Char} (nonempty : more ≠ []) :
    (after chars).Before (after (chars ++ more)) := by
  induction more using List.reverseRecOn with
  | nil => exact absurd rfl nonempty
  | append_singleton more c inductionHypothesis =>
      rw [← List.append_assoc]
      have step := before_after_append_singleton (chars ++ more) c
      cases more with
      | nil => simpa using step
      | cons first rest => exact (inductionHypothesis (List.cons_ne_nil _ _)).trans step

theorem endOf_after (chars : List Char) : EndOf chars (after chars) := by
  induction chars using List.reverseRecOn with
  | nil => exact ⟨rfl, [], [], rfl, .inl rfl, List.not_mem_nil, rfl⟩
  | append_singleton chars c inductionHypothesis =>
      obtain ⟨line, earlier, lastLine, split, ends, noNewline, column⟩ := inductionHypothesis
      by_cases newline : c = '\n'
      · subst newline
        rw [after_newline]
        refine ⟨?_, chars ++ ['\n'], [], by simp, .inr (by simp), List.not_mem_nil, rfl⟩
        simp [line, Nat.add_comm]
      · rw [after_other chars newline]
        refine ⟨?_, earlier, lastLine ++ [c], by simp [split], ends, ?_, ?_⟩
        · simp [line, newline]
        · simp [noNewline, Ne.symm newline]
        · simp [column, Nat.add_assoc]

/-! ## Positions of offsets -/

theorem ofOffset?_append (before after : String) :
    ofOffset? (before ++ after) before.utf8ByteSize = some (.after before.toList) := by
  rw [ofOffset?, String.toList_append, ← byteLength_toList, charsBefore?_append]
  rfl

/-- An offset beyond the end is as good as the end. -/
theorem ofOffset?_of_le {text : String} {offset : Nat} (beyond : text.utf8ByteSize ≤ offset) :
    ofOffset? text offset = ofOffset? text text.utf8ByteSize := by
  rw [← byteLength_toList] at beyond ⊢
  rw [ofOffset?, ofOffset?, charsBefore?_of_le beyond, charsBefore?_of_le (Nat.le_refl _)]

/-- The offsets that have a position are those that split no character. -/
theorem isSome_ofOffset?_iff {text : String} {offset : Nat} :
    (ofOffset? text offset).isSome ↔ Boundary text offset ∨ text.utf8ByteSize < offset := by
  rw [ofOffset?, Option.isSome_map]
  constructor
  · intro found
    obtain ⟨before, isBefore⟩ := Option.isSome_iff_exists.1 found
    obtain ⟨after, split, rfl | ⟨rfl, beyond⟩⟩ := append_of_charsBefore? isBefore
    · exact .inl (boundary_byteLength split)
    · rw [← byteLength_toList, split, List.append_nil]
      exact .inr beyond
  · rintro (boundary | beyond)
    · obtain ⟨before, after, rfl, rfl⟩ := boundary.split
      rw [String.toList_append, ← byteLength_toList, charsBefore?_append]
      rfl
    · rw [charsBefore?_of_le (by rw [byteLength_toList]; omega)]
      rfl

/-- Boundaries come in the order of their positions. -/
theorem before_of_lt {text : String} {first second : Nat} (firstBoundary : Boundary text first)
    (secondBoundary : Boundary text second) (isLess : first < second) :
    ∃ left right, ofOffset? text first = some left ∧ ofOffset? text second = some right ∧
      left.Before right := by
  obtain ⟨before, after, rfl, rfl⟩ := firstBoundary.split
  obtain ⟨more, rest, split, rfl⟩ := secondBoundary.split
  refine ⟨_, _, ofOffset?_append before after, split ▸ ofOffset?_append more rest, ?_⟩
  have chars : before.toList ++ after.toList = more.toList ++ rest.toList := by
    rw [← String.toList_append, ← String.toList_append, split]
  simp only [← byteLength_toList] at isLess
  -- One of the two beginnings goes on from the other; it is the second, since that is the longer.
  rcases List.append_eq_append_iff.1 chars with ⟨between, grown, _⟩ | ⟨between, grown, _⟩
  · rw [grown]
    refine before_after_append _ ?_
    rintro rfl
    simp [grown] at isLess
  · rw [grown, byteLength_append] at isLess
    omega

theorem ofOffset?_injective {text : String} {first second : Nat}
    (firstBoundary : Boundary text first) (secondBoundary : Boundary text second)
    (same : ofOffset? text first = ofOffset? text second) :
    first = second := by
  have apart : ∀ {lower upper : Nat}, Boundary text lower → Boundary text upper →
      ofOffset? text lower = ofOffset? text upper → ¬ lower < upper := by
    intro lower upper lowerBoundary upperBoundary equal isLess
    obtain ⟨left, right, isLeft, isRight, before⟩ :=
      before_of_lt lowerBoundary upperBoundary isLess
    rw [isLeft, isRight, Option.some.injEq] at equal
    exact Before.irrefl right (equal ▸ before)
  have := apart firstBoundary secondBoundary same
  have := apart secondBoundary firstBoundary same.symm
  omega

end Position

end PassScheduler
