import PassScheduler.Graph.Requirement
import PassScheduler.Pass.Descriptor

/-!
Contract: which passes hold a result that may be trusted.

Owns: the state of each pass since the last reset and the three ways in which states change. A
run makes an analysis valid, an invalidation takes that away, and a transformation is never
valid.

Does not own: when passes run, or what makes which pass stale.
-/

namespace PassScheduler

inductive PassState where
  | unscheduled
  | valid
  | ranTransient
  | invalidated
deriving DecidableEq, Repr

namespace PassState

def text : PassState → String
  | .unscheduled => "unscheduled"
  | .valid => "valid"
  | .ranTransient => "ran_transient"
  | .invalidated => "invalidated"

/-- Whether a demand for a pass in that state has to run it. -/
def needsRun (state : PassState) : Bool :=
  state ≠ .valid

/-- The state after a completed run of a pass of that kind. -/
def afterRun : PassKind → PassState
  | .analysis => .valid
  | .transformation => .ranTransient

end PassState

/-- The state of every pass. A number beyond the table is unscheduled and stays so. -/
structure ValiditySet where
  states : List PassState
deriving DecidableEq, Repr

namespace ValiditySet

/-- All passes unscheduled. -/
def fresh (count : Nat) : ValiditySet :=
  ⟨List.replicate count .unscheduled⟩

def state (validity : ValiditySet) (id : PassId) : PassState :=
  (validity.states[id]?).getD .unscheduled

def isValid (validity : ValiditySet) (id : PassId) : Bool :=
  validity.state id = .valid

def set (validity : ValiditySet) (id : PassId) (state : PassState) : ValiditySet :=
  ⟨validity.states.set id state⟩

def recordRun (validity : ValiditySet) (id : PassId) (kind : PassKind) : ValiditySet :=
  validity.set id (.afterRun kind)

/-- Takes its validity from a pass. A pass that is not valid stays as it is. -/
def invalidate (validity : ValiditySet) (id : PassId) : ValiditySet :=
  if validity.isValid id then validity.set id .invalidated else validity

def reset (validity : ValiditySet) : ValiditySet :=
  fresh validity.states.length

/-- The valid passes, in ascending order. -/
def valid (validity : ValiditySet) : List PassId :=
  (List.range validity.states.length).filter validity.isValid

theorem state_set (validity : ValiditySet) (id other : PassId) (state : PassState) :
    (validity.set id state).state other =
      if id = other ∧ id < validity.states.length then state else validity.state other := by
  unfold ValiditySet.state ValiditySet.set
  rw [List.getElem?_set]
  by_cases same : id = other
  · subst same
    by_cases inside : id < validity.states.length
    · simp [inside]
    · simp [inside]
  · simp [same]

theorem state_fresh (count : Nat) (id : PassId) : (fresh count).state id = .unscheduled := by
  unfold ValiditySet.state fresh
  cases found : (List.replicate count PassState.unscheduled)[id]? with
  | none => rfl
  | some state =>
      obtain ⟨inside, equal⟩ := List.getElem?_eq_some_iff.1 found
      rw [List.getElem_replicate] at equal
      exact equal.symm

theorem state_reset (validity : ValiditySet) (id : PassId) :
    validity.reset.state id = .unscheduled :=
  state_fresh validity.states.length id

theorem isValid_iff (validity : ValiditySet) (id : PassId) :
    validity.isValid id ↔ validity.state id = .valid := by
  simp [isValid]

theorem lt_of_isValid {validity : ValiditySet} {id : PassId} (valid : validity.isValid id) :
    id < validity.states.length := by
  rw [isValid_iff, ValiditySet.state] at valid
  by_cases inside : id < validity.states.length
  · exact inside
  · simp [inside] at valid

theorem state_invalidate (validity : ValiditySet) (id other : PassId) :
    (validity.invalidate id).state other =
      if id = other ∧ validity.isValid id then .invalidated else validity.state other := by
  unfold invalidate
  by_cases valid : validity.isValid id
  · simp [valid, state_set, lt_of_isValid valid]
  · simp [valid]

theorem state_recordRun (validity : ValiditySet) (id other : PassId) (kind : PassKind) :
    (validity.recordRun id kind).state other =
      if id = other ∧ id < validity.states.length then .afterRun kind
      else validity.state other :=
  state_set validity id other _

@[simp] theorem length_invalidate (validity : ValiditySet) (id : PassId) :
    (validity.invalidate id).states.length = validity.states.length := by
  unfold invalidate ValiditySet.set
  split <;> simp

@[simp] theorem length_recordRun (validity : ValiditySet) (id : PassId) (kind : PassKind) :
    (validity.recordRun id kind).states.length = validity.states.length := by
  simp [recordRun, ValiditySet.set]

@[simp] theorem length_reset (validity : ValiditySet) :
    validity.reset.states.length = validity.states.length := by
  simp [reset, fresh]

end ValiditySet

end PassScheduler
