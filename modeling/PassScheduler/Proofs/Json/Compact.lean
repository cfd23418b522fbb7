import PassScheduler.Proofs.Json.Spelling
import PassScheduler.Proofs.Text.Delimited

/-!
Contract: what the compact form of a document says.

A string in quotes reads as itself, whatever follows it. The first character of a document tells of
which kind it is, and its text ends where no digit follows. The compact form therefore determines
the document, with the order of its items and fields.

Owns:
- that a quoted string shows where it ends;
- the compact form as rows of texts with commas in between, and that it determines the document.

Does not own: the reading of whole documents, or which of them are written for what.
-/

namespace PassScheduler.Json

open Lexer (Avoids)
open Text (Delimited separated separated_cons delimited_digits)

/-! ## Strings -/

theorem delimited_quote (follows : List Char → Prop) (text : String) :
    Delimited follows (fun text => (quote text).toList) text := by
  intro other rest otherRest _ _ same
  have opened : ∀ (text : String) (rest : List Char), (quote text).toList ++ rest =
      '"' :: ((text.toList.flatMap fun c => (escapedChar c).toList) ++ '"' :: rest) := by
    simp [toList_quote]
  simp only [opened, List.cons.injEq, true_and] at same
  have sameReading := congrArg readString same
  simp only [(spellsChars_escaped _).readString, Except.ok.injEq, Prod.mk.injEq,
    String.toList_inj] at sameReading
  exact sameReading

/-! ## Documents -/

theorem toList_compactItems (items : List Document) :
    (compactItems items).toList = separated (fun item => (compact item).toList) items := by
  induction items with
  | nil => simp [compactItems]
  | cons item rest inductionHypothesis =>
      cases rest with
      | nil => simp [compactItems, separated_cons]
      | cons next more =>
          simp [compactItems, separated_cons, inductionHypothesis]

/-- A field is its name in quotes, a colon and its value. -/
def fieldText (field : String × Document) : List Char :=
  (quote field.1).toList ++ ':' :: (compact field.2).toList

theorem toList_compactFields (fields : List (String × Document)) :
    (compactFields fields).toList = separated fieldText fields := by
  induction fields with
  | nil => simp [compactFields]
  | cons field rest inductionHypothesis =>
      cases rest with
      | nil => simp [compactFields, separated_cons, fieldText]
      | cons next more =>
          simp [compactFields, separated_cons, inductionHypothesis, fieldText]

theorem toList_compact_array (items : List Document) (rest : List Char) :
    (compact (.array items)).toList ++ rest =
      '[' :: (separated (fun item => (compact item).toList) items ++ ']' :: rest) := by
  simp [compact, toList_compactItems]

theorem toList_compact_object (fields : List (String × Document)) (rest : List Char) :
    (compact (.object fields)).toList ++ rest =
      '\x7b' :: (separated fieldText fields ++ '\x7d' :: rest) := by
  simp [compact, toList_compactFields]

/-- Whether a document of this kind begins with a character. -/
def Document.begins : Document → Char → Bool
  | .null, c => c = 'n'
  | .bool _, c => c = 't' || c = 'f'
  | .number _, c => c.isDigit
  | .string _, c => c = '"'
  | .array _, c => c = '['
  | .object _, c => c = '\x7b'

theorem Document.begins_compact (document : Document) :
    ∃ first more, (compact document).toList = first :: more ∧ document.begins first := by
  cases document with
  | null => exact ⟨'n', "ull".toList, by simp [compact], rfl⟩
  | bool b =>
      cases b
      · exact ⟨'f', "alse".toList, by simp [compact, boolText], rfl⟩
      · exact ⟨'t', "rue".toList, by simp [compact, boolText], rfl⟩
  | number n =>
      cases digits : Nat.toDigits 10 n with
      | nil => exact absurd digits Nat.toDigits_ne_nil
      | cons first more =>
          have isFirst : first ∈ Nat.toDigits 10 n := by simp [digits]
          have isDigit := Nat.isDigit_of_mem_toDigits (by decide) (by decide) isFirst
          exact ⟨first, more, by simp [compact, digits], isDigit⟩
  | string text => exact ⟨_, _, toList_quote text, rfl⟩
  | array items => exact ⟨_, _, by simpa using toList_compact_array items [], rfl⟩
  | object fields => exact ⟨_, _, by simpa using toList_compact_object fields [], rfl⟩

/-- The first character tells the kinds of documents apart. -/
theorem Document.ctorIdx_eq_of_begins {one other : Document} {c : Char} (begins : one.begins c)
    (beginsToo : other.begins c) : one.ctorIdx = other.ctorIdx := by
  cases one <;> cases other <;> first | rfl | simp_all [Document.begins]
  case bool.number => obtain rfl | rfl := begins <;> simp at beginsToo
  case number.bool => obtain rfl | rfl := beginsToo <;> simp at begins

theorem ctorIdx_eq_of_append {one other : Document} {rest otherRest : List Char}
    (same : (compact one).toList ++ rest = (compact other).toList ++ otherRest) :
    one.ctorIdx = other.ctorIdx := by
  obtain ⟨first, more, isText, begins⟩ := one.begins_compact
  obtain ⟨otherFirst, otherMore, isOtherText, otherBegins⟩ := other.begins_compact
  rw [isText, isOtherText] at same
  obtain rfl := List.head_eq_of_cons_eq same
  exact Document.ctorIdx_eq_of_begins begins otherBegins

/-- No document begins with the bracket that closes an array. -/
theorem compact_append_ne_bracket (document : Document) (more rest : List Char) :
    (compact document).toList ++ more ≠ ']' :: rest := by
  obtain ⟨first, tail, isText, begins⟩ := document.begins_compact
  intro same
  rw [isText] at same
  obtain rfl := List.head_eq_of_cons_eq same
  cases document <;> simp [Document.begins] at begins

theorem fieldText_append_ne_brace (field : String × Document) (more rest : List Char) :
    fieldText field ++ more ≠ '\x7d' :: rest := by
  simp [fieldText, toList_quote]

/-- The text of a field ends where its value does. -/
theorem delimited_fieldText {field : String × Document}
    (value : Delimited (Avoids Char.isDigit) (fun value => (compact value).toList) field.2) :
    Delimited (Avoids Char.isDigit) fieldText field := by
  intro other rest otherRest ends endsToo same
  simp only [fieldText, List.append_assoc, List.cons_append] at same
  obtain ⟨sameKey, sameMore⟩ := delimited_quote (fun _ => True) field.1 _ _ _ trivial trivial same
  obtain ⟨sameValue, isRest⟩ := value _ _ _ ends endsToo (List.tail_eq_of_cons_eq sameMore)
  exact ⟨Prod.ext sameKey sameValue, isRest⟩

/-- The text of a document ends where no digit follows, and then it is the text of no other
document. -/
theorem delimited_compact (document : Document) :
    Delimited (Avoids Char.isDigit) (fun document => (compact document).toList) document := by
  intro other rest otherRest ends endsToo same
  have sameKind := ctorIdx_eq_of_append same
  match document with
  | .null =>
      cases other with
      | null => exact ⟨rfl, List.append_cancel_left same⟩
      | _ => cases sameKind
  | .bool b =>
      cases other with
      | bool otherB => cases b <;> cases otherB <;> simp_all [compact, boolText]
      | _ => cases sameKind
  | .number n =>
      cases other with
      | number otherN =>
          simp only [compact, Nat.toList_repr] at same
          obtain ⟨rfl, isRest⟩ := delimited_digits n otherN rest otherRest ends endsToo same
          exact ⟨rfl, isRest⟩
      | _ => cases sameKind
  | .string text =>
      cases other with
      | string otherText =>
          obtain ⟨rfl, isRest⟩ := delimited_quote _ text otherText rest otherRest ends endsToo same
          exact ⟨rfl, isRest⟩
      | _ => cases sameKind
  | .array items =>
      cases other with
      | array others =>
          simp only [toList_compact_array, List.cons.injEq, true_and] at same
          obtain ⟨rfl, isRest⟩ := Delimited.separated (by decide) (by simp [Avoids])
            (by simp [Avoids]) compact_append_ne_bracket
            (fun item member => delimited_compact item) same
          exact ⟨rfl, isRest⟩
      | _ => cases sameKind
  | .object fields =>
      cases other with
      | object others =>
          simp only [toList_compact_object, List.cons.injEq, true_and] at same
          obtain ⟨rfl, isRest⟩ := Delimited.separated (by decide) (by simp [Avoids])
            (by simp [Avoids]) fieldText_append_ne_brace
            (fun field member => delimited_fieldText (delimited_compact field.2)) same
          exact ⟨rfl, isRest⟩
      | _ => cases sameKind
termination_by document
decreasing_by
  · have isSmaller := List.sizeOf_lt_of_mem member
    simp only [Document.array.sizeOf_spec]
    omega
  · have isSmaller := List.sizeOf_lt_of_mem member
    obtain ⟨key, value⟩ := field
    simp only [Document.object.sizeOf_spec, Prod.mk.sizeOf_spec] at isSmaller ⊢
    omega

/-- The compact form determines the document. -/
theorem compact_injective : Function.Injective compact := by
  intro document other same
  have sameText : (compact document).toList ++ [] = (compact other).toList ++ [] := by rw [same]
  exact (delimited_compact document other [] [] (by simp [Avoids]) (by simp [Avoids]) sameText).1

end PassScheduler.Json
