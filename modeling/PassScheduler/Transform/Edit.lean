import PassScheduler.Program.Function

/-!
Contract: edits, which go over a piece of code and tell whether they changed it.

The two answers are kept apart. That an edit says that it changed something does not mean, by its
type, that the piece is another one afterwards, or the other way round. Both follow for an edit that
lightens: what it changes weighs less.

Owns:
- what becomes of an edited piece, one edit after another, and the elements of a list in turn;
- edits of operands lifted to operations and terminators, and of blocks lifted to functions;
- weights, and edits that lighten.

Does not own: what is edited.
-/

namespace PassScheduler

/-- What became of a piece of code, and whether the edit says that it changed it. -/
structure Edited (α : Type) where
  value : α
  changed : Bool
deriving DecidableEq, Repr

namespace Edited

variable {α β : Type}

/-- A piece can be left as it is. Of two edits that follow each other, a change by either is a
change. -/
instance : Monad Edited where
  pure value := ⟨value, false⟩
  bind first next :=
    let second := next first.value
    ⟨second.value, first.changed || second.changed⟩

/-- What was put in the place of a piece. -/
def replaced (value : α) : Edited α := ⟨value, true⟩

@[simp] theorem value_pure (value : α) : (pure value : Edited α).value = value := rfl

@[simp] theorem changed_pure (value : α) : (pure value : Edited α).changed = false := rfl

@[simp] theorem value_bind (first : Edited α) (next : α → Edited β) :
    (first >>= next).value = (next first.value).value := rfl

@[simp] theorem changed_bind (first : Edited α) (next : α → Edited β) :
    (first >>= next).changed = (first.changed || (next first.value).changed) := rfl

@[simp] theorem value_replaced (value : α) : (replaced value).value = value := rfl

@[simp] theorem changed_replaced (value : α) : (replaced value).changed = true := rfl

/-- The elements of a list edited in turn. -/
def each (edit : α → Edited α) : List α → Edited (List α)
  | [] => pure []
  | first :: rest => return (← edit first) :: (← each edit rest)

@[simp] theorem value_each (edit : α → Edited α) (elements : List α) :
    (each edit elements).value = elements.map fun element => (edit element).value := by
  induction elements with
  | nil => rfl
  | cons first rest inductionHypothesis =>
      rw [List.map_cons, ← inductionHypothesis]
      rfl

/-- The elements that are kept. That one was not is seen from the number of those that were. -/
def retain (keep : α → Bool) (elements : List α) : Edited (List α) :=
  let kept := elements.filter keep
  ⟨kept, kept.length ≠ elements.length⟩

end Edited

/-! ## Pieces of code -/

/-- The operands of an operation edited in order. -/
def Op.editOperands (edit : Operand → Edited Operand) : Op → Edited Op
  | .const n => pure (.const n)
  | .copy source => return .copy (← edit source)
  | .binary op lhs rhs => return .binary op (← edit lhs) (← edit rhs)

def Terminator.editOperands (edit : Operand → Edited Operand) : Terminator → Edited Terminator
  | .ret result => return .ret (← edit result)
  | .jmp target => pure (.jmp target)
  | .br condition thenLabel elseLabel => return .br (← edit condition) thenLabel elseLabel

def Inst.edit (edit : Op → Edited Op) (inst : Inst) : Edited Inst :=
  return { inst with op := ← edit inst.op }

/-- The instructions of a block edited, and then its terminator. -/
def Block.edit (editInsts : List Inst → Edited (List Inst))
    (editTerm : Terminator → Edited Terminator) (block : Block) : Edited Block :=
  return { block with insts := ← editInsts block.insts, term := ← editTerm block.term }

def Function.editBlocks (edit : Block → Edited Block) (function : Function) : Edited Function :=
  return { function with blocks := ← Edited.each edit function.blocks }

/-! ## Edits that lighten -/

/-- The weight of all elements of a list together. -/
def totalWeight {α : Type} (weight : α → Nat) : List α → Nat
  | [] => 0
  | first :: rest => weight first + totalWeight weight rest

/-- An edit either leaves an element as it is and does not say otherwise, or it says that it changed
it and makes it lighter. -/
def Lightens {α : Type} (weight : α → Nat) (edit : α → Edited α) : Prop :=
  ∀ element, edit element = pure element ∨
    (edit element).changed = true ∧ weight (edit element).value < weight element

namespace Lightens

variable {α : Type} {weight : α → Nat}

theorem pure (weight : α → Nat) : Lightens weight Pure.pure :=
  fun _ => .inl rfl

theorem andThen {first second : α → Edited α} (firstLightens : Lightens weight first)
    (secondLightens : Lightens weight second) :
    Lightens weight fun element => first element >>= second := by
  intro element
  rcases firstLightens element with same | ⟨changed, lighter⟩
  · simp only [same]
    exact secondLightens element
  · refine .inr ⟨by rw [Edited.changed_bind, changed, Bool.true_or], ?_⟩
    rw [Edited.value_bind]
    rcases secondLightens (first element).value with again | ⟨_, again⟩
    · rw [again]
      exact lighter
    · exact Nat.lt_trans again lighter

theorem each {edit : α → Edited α} (lightens : Lightens weight edit) :
    Lightens (totalWeight weight) (Edited.each edit) := by
  intro elements
  induction elements with
  | nil => exact .inl rfl
  | cons first rest inductionHypothesis =>
      simp only [Edited.each, totalWeight, Edited.changed_bind, Edited.value_bind,
        Edited.changed_pure, Edited.value_pure, Bool.or_false]
      rcases lightens first with same | ⟨changed, lighter⟩ <;>
        rcases inductionHypothesis with restSame | ⟨restChanged, restLighter⟩
      · exact .inl (by rw [same, restSame]; rfl)
      · exact .inr ⟨by rw [restChanged, Bool.or_true],
          by rw [same]; exact Nat.add_lt_add_left restLighter _⟩
      · exact .inr ⟨by rw [changed, Bool.true_or],
          by rw [restSame]; exact Nat.add_lt_add_right lighter _⟩
      · exact .inr ⟨by rw [changed, Bool.true_or], Nat.add_lt_add lighter restLighter⟩

theorem inst {weight : Op → Nat} {edit : Op → Edited Op} (lightens : Lightens weight edit) :
    Lightens (fun inst => weight inst.op) (Inst.edit edit) := by
  intro inst
  rcases lightens inst.op with same | ⟨changed, lighter⟩
  · exact .inl (by rw [Inst.edit, same]; rfl)
  · exact .inr ⟨by rw [Inst.edit, Edited.changed_bind, changed, Bool.true_or], lighter⟩

/-- A block becomes lighter with its instructions or with its terminator. -/
theorem block {instsWeight : List Inst → Nat} {termWeight : Terminator → Nat}
    {editInsts : List Inst → Edited (List Inst)} {editTerm : Terminator → Edited Terminator}
    (insts : Lightens instsWeight editInsts) (term : Lightens termWeight editTerm) :
    Lightens (fun block => instsWeight block.insts + termWeight block.term)
      (Block.edit editInsts editTerm) := by
  intro block
  simp only [Block.edit, Edited.changed_bind, Edited.value_bind, Edited.changed_pure,
    Edited.value_pure, Bool.or_false]
  rcases insts block.insts with same | ⟨changed, lighter⟩ <;>
    rcases term block.term with termSame | ⟨termChanged, termLighter⟩
  · exact .inl (by rw [same, termSame]; rfl)
  · exact .inr ⟨by rw [termChanged, Bool.or_true],
      by rw [same]; exact Nat.add_lt_add_left termLighter _⟩
  · exact .inr ⟨by rw [changed, Bool.true_or],
      by rw [termSame]; exact Nat.add_lt_add_right lighter _⟩
  · exact .inr ⟨by rw [changed, Bool.true_or], Nat.add_lt_add lighter termLighter⟩

theorem editBlocks {weight : Block → Nat} {edit : Block → Edited Block}
    (lightens : Lightens weight edit) :
    Lightens (fun function => totalWeight weight function.blocks) (Function.editBlocks edit) := by
  intro function
  rcases lightens.each function.blocks with same | ⟨changed, lighter⟩
  · exact .inl (by rw [Function.editBlocks, same]; rfl)
  · exact .inr ⟨by rw [Function.editBlocks, Edited.changed_bind, changed, Bool.true_or], lighter⟩

end Lightens

end PassScheduler
