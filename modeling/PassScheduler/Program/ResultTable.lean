/-!
Contract: a table that holds at most one result per kind, such as a kind of analysis or a name.

Owns: the table and its operations. A result's type depends on its kind, so a look-up needs no
test of what it finds.

Does not own: which kinds there are, or whether a result still describes the program.
-/

namespace PassScheduler

/-- A finite table from kinds to results of the kind's own type. No kind occurs twice among the
entries of a table that is built by `empty`, `insert`, `erase`. -/
structure ResultTable (Kind : Type) (Result : Kind → Type) where
  entries : List ((kind : Kind) × Result kind)

namespace ResultTable

variable {Kind : Type} {Result : Kind → Type} [DecidableEq Kind]

/-- The result of a kind among some entries. -/
def find? (kind : Kind) : List ((kind : Kind) × Result kind) → Option (Result kind)
  | [] => none
  | ⟨other, result⟩ :: rest =>
      if same : other = kind then some (same ▸ result) else find? kind rest

def empty : ResultTable Kind Result :=
  ⟨[]⟩

def get? (table : ResultTable Kind Result) (kind : Kind) : Option (Result kind) :=
  find? kind table.entries

def erase (table : ResultTable Kind Result) (kind : Kind) : ResultTable Kind Result :=
  ⟨table.entries.filter fun entry => entry.1 ≠ kind⟩

/-- Stores a result in the place of an older one of its kind. -/
def insert (table : ResultTable Kind Result) (kind : Kind) (result : Result kind) :
    ResultTable Kind Result :=
  ⟨⟨kind, result⟩ :: (table.erase kind).entries⟩

def size (table : ResultTable Kind Result) : Nat :=
  table.entries.length

@[simp] theorem get?_empty (kind : Kind) :
    (empty : ResultTable Kind Result).get? kind = none :=
  rfl

@[simp] theorem get?_insert_self (table : ResultTable Kind Result) (kind : Kind)
    (result : Result kind) :
    (table.insert kind result).get? kind = some result := by
  simp [insert, get?, find?]

private theorem find?_filter_ne {kind other : Kind} (distinct : other ≠ kind)
    (entries : List ((kind : Kind) × Result kind)) :
    find? kind (entries.filter fun entry => entry.1 ≠ other) = find? kind entries := by
  induction entries with
  | nil => rfl
  | cons entry rest inductionHypothesis =>
      obtain ⟨key, result⟩ := entry
      by_cases isOther : key = other
      · subst isOther
        simpa [find?, distinct] using inductionHypothesis
      · by_cases isKind : key = kind <;>
          simp_all [find?]

private theorem find?_filter_self (kind : Kind)
    (entries : List ((kind : Kind) × Result kind)) :
    find? kind (entries.filter fun entry => entry.1 ≠ kind) = none := by
  induction entries with
  | nil => rfl
  | cons entry rest inductionHypothesis =>
      by_cases isKind : entry.1 = kind
      · simpa [isKind] using inductionHypothesis
      · simp [isKind, find?]
        simpa using inductionHypothesis

@[simp] theorem get?_erase_self (table : ResultTable Kind Result) (kind : Kind) :
    (table.erase kind).get? kind = none :=
  find?_filter_self kind table.entries

theorem get?_erase_of_ne (table : ResultTable Kind Result) {kind other : Kind}
    (distinct : other ≠ kind) :
    (table.erase other).get? kind = table.get? kind :=
  find?_filter_ne distinct table.entries

theorem get?_insert_of_ne (table : ResultTable Kind Result) {kind other : Kind}
    (distinct : other ≠ kind) (result : Result other) :
    (table.insert other result).get? kind = table.get? kind := by
  simp only [insert, get?, find?, distinct, ↓reduceDIte]
  exact find?_filter_ne distinct table.entries

end ResultTable

end PassScheduler
