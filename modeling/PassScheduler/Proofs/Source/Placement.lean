import PassScheduler.Proofs.Source.Expectation
import PassScheduler.Proofs.Source.Parsing
import PassScheduler.Proofs.Text.Position

/-!
Contract: what is said of a source text can be shown at its place.

Owns: that the spans of all problems lie in the text and split none of its characters, so that every
problem can be rendered.

Does not own: what lines and columns count.
-/

namespace PassScheduler

/-- The span lies in a text and splits none of its characters. -/
structure Span.Within (span : Span) (text : String) : Prop where
  ordered : span.start ≤ span.stop
  inside : span.stop ≤ text.utf8ByteSize
  start : Boundary text span.start
  stop : Boundary text span.stop

theorem Span.Cuts.within {span : Span} {text : String} {piece : List Char}
    (cuts : span.Cuts text.toList piece) :
    span.Within text := by
  obtain ⟨before, after, split, rfl⟩ := cuts
  have stops := boundary_byteLength split
  rw [byteLength_append] at stops
  refine ⟨Nat.le_add_right _ _, ?_, boundary_byteLength (split.trans (List.append_assoc ..)), stops⟩
  rw [← byteLength_toList, split, byteLength_append, byteLength_append]
  exact Nat.le_add_right _ _

/-- The end of a text is a span of it. -/
theorem Span.within_end (text : String) :
    Span.Within ⟨text.utf8ByteSize, text.utf8ByteSize⟩ text := by
  have isEnd : Boundary text text.utf8ByteSize := by
    simpa using boundary_utf8ByteSize text ""
  exact ⟨Nat.le_refl _, Nat.le_refl _, isEnd, isEnd⟩

namespace Source

variable {source : String}

theorem within_of_lexicalProblems {problem : Diagnostic} (mem : problem ∈ lexicalProblems source) :
    problem.span.Within source := by
  obtain ⟨⟨piece, span⟩, isUnexpected, rfl⟩ := List.mem_map.1 mem
  exact (Lexer.cuts_scan (List.mem_filter.1 isUnexpected).1).within

/-- The reader stops at a token or at the end of the text. -/
theorem within_of_readTokens {mismatch : Grammar.Mismatch}
    (stopped : readTokens source = .error mismatch) :
    mismatch.span.Within source := by
  rw [readTokens_eq] at stopped
  cases Grammar.State.halts_of_read_eq_error stopped with
  | @token before after token span _ split _ _ =>
      have isToken : (token, span) ∈ Lexer.tokens source := by simp [split]
      obtain ⟨piece, isScanned, _⟩ := Lexer.scan_of_tokens isToken
      exact (Lexer.cuts_scan isScanned).within
  | ending _ _ => exact Span.within_end source

theorem within_of_syntaxProblems {problem : Diagnostic} (mem : problem ∈ syntaxProblems source) :
    problem.span.Within source := by
  unfold syntaxProblems at mem
  split at mem
  · cases mem
  · rename_i mismatch stopped
    obtain rfl := List.mem_singleton.1 mem
    exact within_of_readTokens stopped

theorem within_of_diagnostics {problem : Diagnostic} (mem : problem ∈ diagnostics source) :
    problem.span.Within source := by
  rw [diagnostics_eq] at mem
  rcases List.mem_append.1 mem with ofPieces | ofTokens
  · exact within_of_lexicalProblems ofPieces
  · exact within_of_syntaxProblems ofTokens

theorem isSome_render? {problem : Diagnostic} (within : problem.span.Within source) :
    (problem.render? source).isSome := by
  rw [Diagnostic.render?, Option.isSome_map]
  exact Position.isSome_ofOffset?_iff.2 (.inl within.start)

/-- The problems of a text lie in it, split none of its characters and can be rendered. Along the
offsets that split no character, positions grow by line and column, so no two offsets share one;
the line counts the newlines before the offset and the column the characters since the last of
them, both from one. An offset beyond the end is the end. -/
theorem diagnostics_placed (source : String) :
    (∀ problem ∈ diagnostics source,
      problem.span.Within source ∧ (problem.render? source).isSome) ∧
    (∀ first second, Boundary source first → Boundary source second → first < second →
      ∃ left right, Position.ofOffset? source first = some left ∧
        Position.ofOffset? source second = some right ∧ left.Before right) ∧
    (∀ first second, Boundary source first → Boundary source second →
      Position.ofOffset? source first = Position.ofOffset? source second → first = second) ∧
    (∀ before after : String, source = before ++ after →
      ∃ position, Position.ofOffset? source before.utf8ByteSize = some position ∧
        position.EndOf before.toList) ∧
    ∀ offset ≥ source.utf8ByteSize,
      Position.ofOffset? source offset = Position.ofOffset? source source.utf8ByteSize := by
  refine ⟨fun problem isProblem => ?_, ?_, ?_, ?_, ?_⟩
  · have within := within_of_diagnostics isProblem
    exact ⟨within, isSome_render? within⟩
  · exact fun _ _ => Position.before_of_lt
  · exact fun _ _ => Position.ofOffset?_injective
  · rintro before after rfl
    exact ⟨_, Position.ofOffset?_append before after, Position.endOf_after _⟩
  · exact fun _ => Position.ofOffset?_of_le

/-- A character of two bytes is one column wide, and what is missing is missed at the very end. -/
example :
    (diagnostics "; é\nfn").map Diagnostic.span = [⟨7, 7⟩] ∧
      Position.ofOffset? "; é\nfn" 7 = some ⟨2, 3⟩ ∧
      Position.ofOffset? "; é\nfn" 4 = some ⟨1, 4⟩ ∧ Position.ofOffset? "; é\nfn" 3 = none := by
  decide +kernel

end Source

end PassScheduler
