import Mathlib.Data.List.Perm.Basic
import PassScheduler.Proofs.Json.Layout

/-!
Contract: values, the texts that lay them out, and the trees that are built from these.

Every value can be laid out in many ways. From each of them the same tree is built, unless a number
of the value is too large or the value is nested too deeply; then the tree has a flaw.

Owns:
- values, their lexemes and their trees;
- that the draft of a text that lays out a value has the tree of the value or a flaw;
- that the compact form and the indented form of a document lay it out.

Does not own: what the fields of an object mean.
-/

namespace PassScheduler.Json

/-! ## Values -/

inductive Value where
  | null
  | bool (b : Bool)
  | number (numeral : Numeral)
  | string (s : String)
  | array (items : List Value)
  | object (fields : List (String × Value))

mutual

def Value.lexemes : Value → List Lexeme
  | .null => [.null]
  | .bool b => [.bool b]
  | .number numeral => [.number numeral]
  | .string s => [.string s]
  | .array items => .mark .openBracket :: (itemsLexemes items ++ [.mark .closeBracket])
  | .object fields => .mark .openBrace :: (fieldsLexemes fields ++ [.mark .closeBrace])

def itemsLexemes : List Value → List Lexeme
  | [] => []
  | [item] => item.lexemes
  | item :: rest => item.lexemes ++ .mark .comma :: itemsLexemes rest

def fieldsLexemes : List (String × Value) → List Lexeme
  | [] => []
  | [(key, value)] => .string key :: .mark .colon :: value.lexemes
  | (key, value) :: rest =>
      .string key :: .mark .colon :: (value.lexemes ++ .mark .comma :: fieldsLexemes rest)

end

mutual

/-- The tree of a value in which arrays and objects are nested at most as deeply as there is room;
`none` if there is less, or if a number is too large. -/
def Value.tree? (room : Nat) : Value → Option Tree
  | .null => some .null
  | .bool b => some (.bool b)
  | .number numeral => numeral.number?.map .number
  | .string s => some (.string s)
  | .array items =>
      if 0 < room then (itemsTrees? (room - 1) items).map fun trees => .array trees .closed
      else none
  | .object fields =>
      if 0 < room then (fieldsTrees? (room - 1) fields).map fun trees => .object trees .closed
      else none

def itemsTrees? (room : Nat) : List Value → Option (List Tree)
  | [] => some []
  | item :: rest =>
      (item.tree? room).bind fun tree => (itemsTrees? room rest).map fun trees => tree :: trees

def fieldsTrees? (room : Nat) : List (String × Value) → Option (List (String × Tree))
  | [] => some []
  | (key, value) :: rest =>
      (value.tree? room).bind fun tree =>
        (fieldsTrees? room rest).map fun trees => (key, tree) :: trees

end

/-- Each field keeps its name, and its value becomes a tree. -/
theorem fieldsTrees?_eq_some_iff {room : Nat} {fields : List (String × Value)}
    {trees : List (String × Tree)} :
    fieldsTrees? room fields = some trees ↔
      List.Forall₂ (fun field tree => field.1 = tree.1 ∧ field.2.tree? room = some tree.2)
        fields trees := by
  induction fields generalizing trees with
  | nil => simp [fieldsTrees?, eq_comm]
  | cons field rest inductionHypothesis =>
      obtain ⟨key, value⟩ := field
      simp only [fieldsTrees?, Option.bind_eq_some_iff, Option.map_eq_some_iff,
        inductionHypothesis, List.forall₂_cons_left_iff]
      constructor
      · rintro ⟨tree, isTree, others, areOthers, rfl⟩
        exact ⟨(key, tree), others, ⟨rfl, isTree⟩, areOthers, rfl⟩
      · rintro ⟨⟨_, tree⟩, others, ⟨rfl, isTree⟩, areOthers, rfl⟩
        exact ⟨tree, isTree, others, areOthers, rfl⟩

theorem map_fst_of_fieldsTrees? {room : Nat} {fields : List (String × Value)}
    {trees : List (String × Tree)} (areTrees : fieldsTrees? room fields = some trees) :
    fields.map Prod.fst = trees.map Prod.fst := by
  have sameNames := (fieldsTrees?_eq_some_iff.1 areTrees).imp fun _ _ related => related.1
  rwa [← List.forall₂_eq_eq_eq, List.forall₂_map_left_iff, List.forall₂_map_right_iff]

/-- Fields in another order have the same trees in another order. -/
theorem fieldsTrees?_perm {room : Nat} {fields others : List (String × Value)}
    {trees : List (String × Tree)} (perm : fields.Perm others)
    (areTrees : fieldsTrees? room others = some trees) :
    ∃ moved, fieldsTrees? room fields = some moved ∧ moved.Perm trees := by
  obtain ⟨moved, areMoved, permMoved⟩ :=
    List.perm_comp_forall₂ perm (fieldsTrees?_eq_some_iff.1 areTrees)
  exact ⟨moved, fieldsTrees?_eq_some_iff.2 areMoved, permMoved⟩

mutual

/-- In the lexemes of a value no two stand together without a mark. -/
theorem Value.spaced : (value : Value) → Spaced value.lexemes
  | .null | .bool _ | .number _ | .string _ => List.isChain_singleton _
  | .array items => (spaced_items items).append_mark (List.isChain_singleton _) |>.mark_cons _
  | .object fields => (spaced_fields fields).append_mark (List.isChain_singleton _) |>.mark_cons _

theorem spaced_items : (items : List Value) → Spaced (itemsLexemes items)
  | [] => List.isChain_nil
  | [item] => item.spaced
  | item :: next :: rest => item.spaced.append_mark ((spaced_items (next :: rest)).mark_cons _)

theorem spaced_fields : (fields : List (String × Value)) → Spaced (fieldsLexemes fields)
  | [] => List.isChain_nil
  | [(key, value)] =>
      have keyed : Spaced [.string key] := List.isChain_singleton _
      keyed.append_mark (value.spaced.mark_cons _)
  | (key, value) :: next :: rest =>
      have keyed : Spaced [.string key] := List.isChain_singleton _
      have more := value.spaced.append_mark ((spaced_fields (next :: rest)).mark_cons .comma)
      keyed.append_mark (more.mark_cons _)

end

/-! ## Flaws -/

/-- The root of a draft has a flaw. -/
def Draft.Flawed (draft : Draft) : Prop :=
  draft.root.flaw?.isSome

/-- A flaw stays one in whatever stands around it. -/
theorem flawed_abandon (flaw : Flaw) {last : Tree} (flawed : last.flaw?.isSome)
    (around : List OpenTree) :
    (abandon flaw last around).Flawed := by
  induction around generalizing last with
  | nil => exact flawed
  | cons outer around inductionHypothesis =>
      have flawedOuter : (outer.close (.broken flaw) last).flaw?.isSome := by
        cases outer <;> simp [OpenTree.close, Tree.flaw?, Ending.flaw?]
      exact inductionHypothesis flawedOuter

theorem flawed_abandonValue (flaw : Flaw) (around : List OpenTree) :
    (abandonValue flaw around).Flawed :=
  flawed_abandon flaw rfl around

/-! ## What is built from a value -/

/-- What comes of a part of a text: with what it means the draft goes on behind it, and if it has
no meaning the draft is flawed. -/
def Outcome {α : Type} (goesOn : α → Draft) (meaning : Option α) (draft : Draft) : Prop :=
  match meaning with
  | some a => draft = goesOn a
  | none => draft.Flawed

namespace Outcome

variable {α β : Type} {goesOn : α → Draft} {goesOnAfter : β → Draft} {meaning : Option α}
  {draft : Draft}

theorem bind {meaningAfter : α → Option β} (first : Outcome goesOn meaning draft)
    (after : ∀ a, Outcome goesOnAfter (meaningAfter a) (goesOn a)) :
    Outcome goesOnAfter (meaning.bind meaningAfter) draft := by
  cases meaning with
  | none => exact first
  | some a =>
      obtain rfl : draft = goesOn a := first
      exact after a

theorem map {f : α → β} (outcome : Outcome goesOn meaning draft)
    (same : ∀ a, goesOn a = goesOnAfter (f a)) :
    Outcome goesOnAfter (meaning.map f) draft := by
  cases meaning with
  | none => exact outcome
  | some a => exact Eq.trans outcome (same a)

end Outcome

def tokensOf (lexemes : List Lexeme) : List Token :=
  lexemes.map Lexeme.token

theorem tokensOf_append (lexemes others : List Lexeme) :
    tokensOf (lexemes ++ others) = tokensOf lexemes ++ tokensOf others :=
  List.map_append

theorem build_openBracket (around : List OpenTree) (rest : List Token) :
    build .value around (.openBracket :: rest) =
      if around.length < nestingLimit then build .firstItem around rest
      else abandonValue .malformed around := by
  by_cases fits : around.length < nestingLimit <;> simp [build, move, startValue, fits]

theorem build_openBrace (around : List OpenTree) (rest : List Token) :
    build .value around (.openBrace :: rest) =
      if around.length < nestingLimit then build .firstKey around rest
      else abandonValue .malformed around := by
  by_cases fits : around.length < nestingLimit <;> simp [build, move, startValue, fits]

/-- Every value begins with a token that closes no array. -/
theorem Value.build_firstItem (value : Value) (around : List OpenTree) (rest : List Token) :
    build .firstItem around (tokensOf value.lexemes ++ rest) =
      build .value (.array [] :: around) (tokensOf value.lexemes ++ rest) := by
  cases value with
  | number numeral =>
      simp only [tokensOf, Value.lexemes, List.map_cons, Lexeme.token]
      cases numeral.number? <;> rfl
  | _ => rfl

theorem build_firstItem_items (item : Value) (more : List Value) (around : List OpenTree)
    (rest : List Token) :
    build .firstItem around (tokensOf (itemsLexemes (item :: more)) ++ rest) =
      build .value (.array [] :: around) (tokensOf (itemsLexemes (item :: more)) ++ rest) := by
  cases more with
  | nil => exact item.build_firstItem around rest
  | cons next others =>
      rw [itemsLexemes, tokensOf_append, List.append_assoc]
      · exact item.build_firstItem around _
      · rintro ⟨⟩

theorem build_firstKey_fields (field : String × Value) (more : List (String × Value))
    (around : List OpenTree) (rest : List Token) :
    build .firstKey around (tokensOf (fieldsLexemes (field :: more)) ++ rest) =
      build (.nextKey []) around (tokensOf (fieldsLexemes (field :: more)) ++ rest) := by
  cases more <;> rfl

mutual

/-- The tokens of a value complete its tree where a value should be. -/
theorem Value.build_value (around : List OpenTree) (rest : List Token) : (value : Value) →
    Outcome (fun tree => build (.complete tree) around rest)
      (value.tree? (nestingLimit - around.length))
      (build .value around (tokensOf value.lexemes ++ rest))
  | .null | .bool _ | .string _ => rfl
  | .number numeral => by
      simp only [Value.tree?, tokensOf, Value.lexemes, List.map_cons, Lexeme.token]
      cases numeral.number? with
      | some number => rfl
      | none => exact flawed_abandonValue .malformed around
  | .array items => by
      have isText : tokensOf (Value.array items).lexemes ++ rest =
          .openBracket :: (tokensOf (itemsLexemes items) ++ .closeBracket :: rest) := by
        simp [tokensOf, Value.lexemes, Lexeme.token, Mark.token]
      rw [isText, build_openBracket, Value.tree?]
      by_cases fits : around.length < nestingLimit
      · rw [if_pos fits, if_pos (by omega)]
        match items with
        | [] => rfl
        | item :: more =>
            -- the open array takes one of the levels that are left
            rw [build_firstItem_items, Nat.sub_sub]
            exact (build_items [] around rest (item :: more) (by simp)).map fun _ => rfl
      · rw [if_neg fits, if_neg (by omega)]
        exact flawed_abandonValue .malformed around
  | .object fields => by
      have isText : tokensOf (Value.object fields).lexemes ++ rest =
          .openBrace :: (tokensOf (fieldsLexemes fields) ++ .closeBrace :: rest) := by
        simp [tokensOf, Value.lexemes, Lexeme.token, Mark.token]
      rw [isText, build_openBrace, Value.tree?]
      by_cases fits : around.length < nestingLimit
      · rw [if_pos fits, if_pos (by omega)]
        match fields with
        | [] => rfl
        | field :: more =>
            rw [build_firstKey_fields, Nat.sub_sub]
            exact (build_fields [] around rest (field :: more) (by simp)).map fun _ => rfl
      · rw [if_neg fits, if_neg (by omega)]
        exact flawed_abandonValue .malformed around

/-- The tokens of the last items of an array complete it behind those before them. -/
theorem build_items (before : List Tree) (around : List OpenTree) (rest : List Token) :
    (items : List Value) → items ≠ [] →
    Outcome (fun trees => build (.complete (.array (before ++ trees) .closed)) around rest)
      (itemsTrees? (nestingLimit - (around.length + 1)) items)
      (build .value (.array before :: around)
        (tokensOf (itemsLexemes items) ++ .closeBracket :: rest))
  | [], notEmpty => absurd rfl notEmpty
  | [item], _ => by
      have completed := item.build_value (.array before :: around) (.closeBracket :: rest)
      exact completed.bind fun tree => rfl
  | item :: next :: others, _ => by
      have isText : tokensOf (itemsLexemes (item :: next :: others)) ++ .closeBracket :: rest =
          tokensOf item.lexemes ++
            (.comma :: (tokensOf (itemsLexemes (next :: others)) ++ .closeBracket :: rest)) := by
        rw [itemsLexemes, tokensOf_append, List.append_assoc]
        · rfl
        · rintro ⟨⟩
      rw [isText, itemsTrees?]
      refine (item.build_value (.array before :: around) _).bind fun tree => ?_
      have more := build_items (before ++ [tree]) around rest (next :: others) (by simp)
      exact more.map fun trees => by simp

/-- The tokens of the last fields of an object complete it behind those before them. -/
theorem build_fields (before : List (String × Tree)) (around : List OpenTree)
    (rest : List Token) :
    (fields : List (String × Value)) → fields ≠ [] →
    Outcome (fun trees => build (.complete (.object (before ++ trees) .closed)) around rest)
      (fieldsTrees? (nestingLimit - (around.length + 1)) fields)
      (build (.nextKey before) around
        (tokensOf (fieldsLexemes fields) ++ .closeBrace :: rest))
  | [], notEmpty => absurd rfl notEmpty
  | [(key, value)], _ => by
      have completed := value.build_value (.object before key :: around) (.closeBrace :: rest)
      exact completed.bind fun tree => rfl
  | (key, value) :: next :: others, _ => by
      have isText :
          tokensOf (fieldsLexemes ((key, value) :: next :: others)) ++ .closeBrace :: rest =
            .string key :: .colon :: (tokensOf value.lexemes ++
              (.comma :: (tokensOf (fieldsLexemes (next :: others)) ++ .closeBrace :: rest))) := by
        rw [fieldsLexemes, tokensOf, List.map_cons, List.map_cons, List.map_append]
        · simp [tokensOf, Lexeme.token, Mark.token]
        · rintro ⟨⟩
      rw [isText, fieldsTrees?]
      refine (value.build_value (.object before key :: around) _).bind fun tree => ?_
      have more := build_fields (before ++ [(key, tree)]) around rest (next :: others) (by simp)
      exact more.map fun trees => by simp

end

/-- A text that lays out a value is read to its end, with the tree of the value or with a flaw. -/
theorem Draft.ofText_lays {value : Value} {text : String}
    (lays : Lays value.lexemes text.toList) :
    Outcome (fun tree => ⟨tree, false⟩) (value.tree? nestingLimit) (Draft.ofText text) := by
  rw [Draft.ofText, tokens, lays.build_tokensWithin value.spaced (Nat.le_refl _)]
  have built := value.build_value [] []
  rw [List.append_nil] at built
  exact built

/-! ## Documents -/

mutual

/-- The value of a document, whose numbers have neither sign nor fraction nor exponent. -/
def Document.value : Document → Value
  | .null => .null
  | .bool b => .bool b
  | .number n => .number { whole := n }
  | .string s => .string s
  | .array items => .array (itemValues items)
  | .object fields => .object (fieldValues fields)

def itemValues : List Document → List Value
  | [] => []
  | item :: rest => item.value :: itemValues rest

def fieldValues : List (String × Document) → List (String × Value)
  | [] => []
  | (key, value) :: rest => (key, value.value) :: fieldValues rest

end

theorem lays_number (n : Nat) : Lays [.number { whole := n }] n.repr.toList := by
  have isText : n.repr.toList = Numeral.chars { whole := n } := by
    simp [Numeral.chars, Numeral.magnitude, Numeral.fractionChars, Numeral.exponentChars]
  rw [isText]
  exact .single (.number _)

theorem lays_quote (s : String) : Lays [.string s] (quote s).toList := by
  rw [toList_quote]
  exact .single (.string (spellsChars_escaped s.toList))

theorem lays_mark (symbol : Mark) : Lays [.mark symbol] [symbol.char] :=
  .single (.mark symbol)

mutual

/-- The compact form of a document lays out its value. -/
theorem lays_compact : (document : Document) →
    Lays document.value.lexemes (compact document).toList
  | .null => .single .null
  | .bool b => .single (.bool b)
  | .number n => lays_number n
  | .string s => lays_quote s
  | .array items => by
      have isText : (compact (.array items)).toList =
          ['['] ++ ((compactItems items).toList ++ [']']) := by
        simp [compact]
      rw [isText]
      exact (lays_mark .openBracket).append
        ((lays_compactItems items).append (lays_mark .closeBracket))
  | .object fields => by
      have isText : (compact (.object fields)).toList =
          ['{'] ++ ((compactFields fields).toList ++ ['}']) := by
        simp [compact]
      rw [isText]
      exact (lays_mark .openBrace).append
        ((lays_compactFields fields).append (lays_mark .closeBrace))

theorem lays_compactItems : (items : List Document) →
    Lays (itemsLexemes (itemValues items)) (compactItems items).toList
  | [] => .done
  | [item] => lays_compact item
  | item :: next :: others => by
      have isText : (compactItems (item :: next :: others)).toList =
          (compact item).toList ++ ([','] ++ (compactItems (next :: others)).toList) := by
        simp [compactItems]
      rw [isText]
      exact (lays_compact item).append
        ((lays_mark .comma).append (lays_compactItems (next :: others)))

theorem lays_compactFields : (fields : List (String × Document)) →
    Lays (fieldsLexemes (fieldValues fields)) (compactFields fields).toList
  | [] => .done
  | [(key, value)] => by
      have isText : (compactFields [(key, value)]).toList =
          (quote key).toList ++ ([':'] ++ (compact value).toList) := by
        simp [compactFields]
      rw [isText]
      exact (lays_quote key).append ((lays_mark .colon).append (lays_compact value))
  | (key, value) :: next :: others => by
      have isText : (compactFields ((key, value) :: next :: others)).toList =
          (quote key).toList ++ ([':'] ++ ((compact value).toList ++
            ([','] ++ (compactFields (next :: others)).toList))) := by
        simp [compactFields]
      rw [isText]
      exact (lays_quote key).append ((lays_mark .colon).append ((lays_compact value).append
        ((lays_mark .comma).append (lays_compactFields (next :: others)))))

end

theorem lays_newLine (indent : Nat) : Lays [] (newLine indent).toList := by
  refine .blanks fun c member => ?_
  simp only [newLine, String.toList_append, String.toList_ofList, List.mem_append,
    List.mem_replicate] at member
  rcases member with isBreak | ⟨_, rfl⟩
  · obtain rfl : c = '\n' := by simpa using isBreak
    rfl
  · rfl

mutual

/-- The indented form of a document lays out the same value. -/
theorem lays_indented (indent : Nat) : (document : Document) →
    Lays document.value.lexemes (indented indent document).toList
  | .null => .single .null
  | .bool b => .single (.bool b)
  | .number n => lays_number n
  | .string s => lays_quote s
  | .array [] => by
      have isText : (indented indent (.array [])).toList = ['['] ++ [']'] := by simp [indented]
      rw [isText]
      exact (lays_mark .openBracket).append (lays_mark .closeBracket)
  | .array (item :: more) => by
      have isText : (indented indent (.array (item :: more))).toList =
          ['['] ++ ((indentedItems (indent + 2) (item :: more)).toList ++
            ((newLine indent).toList ++ [']'])) := by
        simp [indented]
      rw [isText]
      exact (lays_mark .openBracket).append ((lays_indentedItems (indent + 2) (item :: more)).append
        ((lays_newLine indent).append (lays_mark .closeBracket)))
  | .object [] => by
      have isText : (indented indent (.object [])).toList = ['{'] ++ ['}'] := by simp [indented]
      rw [isText]
      exact (lays_mark .openBrace).append (lays_mark .closeBrace)
  | .object (field :: more) => by
      have isText : (indented indent (.object (field :: more))).toList =
          ['{'] ++ ((indentedFields (indent + 2) (field :: more)).toList ++
            ((newLine indent).toList ++ ['}'])) := by
        simp [indented]
      rw [isText]
      exact (lays_mark .openBrace).append ((lays_indentedFields (indent + 2) (field :: more)).append
        ((lays_newLine indent).append (lays_mark .closeBrace)))

theorem lays_indentedItems (indent : Nat) : (items : List Document) →
    Lays (itemsLexemes (itemValues items)) (indentedItems indent items).toList
  | [] => .done
  | [item] => by
      have isText : (indentedItems indent [item]).toList =
          (newLine indent).toList ++ (indented indent item).toList := by
        simp [indentedItems]
      rw [isText]
      exact (lays_newLine indent).append (lays_indented indent item)
  | item :: next :: others => by
      have isText : (indentedItems indent (item :: next :: others)).toList =
          (newLine indent).toList ++ ((indented indent item).toList ++
            ([','] ++ (indentedItems indent (next :: others)).toList)) := by
        simp [indentedItems]
      rw [isText]
      exact (lays_newLine indent).append ((lays_indented indent item).append
        ((lays_mark .comma).append (lays_indentedItems indent (next :: others))))

theorem lays_indentedFields (indent : Nat) : (fields : List (String × Document)) →
    Lays (fieldsLexemes (fieldValues fields)) (indentedFields indent fields).toList
  | [] => .done
  | [(key, value)] => by
      have isText : (indentedFields indent [(key, value)]).toList =
          (newLine indent).toList ++ ((quote key).toList ++
            ([':'] ++ ([' '] ++ (indented indent value).toList))) := by
        simp [indentedFields]
      rw [isText]
      exact (lays_newLine indent).append ((lays_quote key).append
        ((lays_mark .colon).append (.blank rfl (lays_indented indent value))))
  | (key, value) :: next :: others => by
      have isText : (indentedFields indent ((key, value) :: next :: others)).toList =
          (newLine indent).toList ++ ((quote key).toList ++
            ([':'] ++ ([' '] ++ ((indented indent value).toList ++
              ([','] ++ (indentedFields indent (next :: others)).toList))))) := by
        simp [indentedFields]
      rw [isText]
      exact (lays_newLine indent).append ((lays_quote key).append ((lays_mark .colon).append
        (.blank rfl ((lays_indented indent value).append
          ((lays_mark .comma).append (lays_indentedFields indent (next :: others)))))))

end

theorem lays_pretty (document : Document) :
    Lays document.value.lexemes (pretty document).toList :=
  lays_indented 0 document

end PassScheduler.Json
