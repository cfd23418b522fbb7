/-!
Contract: the decisions of a scheduler, one event each, in the order in which they were made.

Owns: events, traces and what can be counted in them.

Does not own: the text form of a trace.
-/

namespace PassScheduler

/-- What was decided about a pass. -/
inductive Action where
  | ran (changed : Bool)
  | cached
  | skipped
  | invalidated
deriving DecidableEq, Repr

namespace Action

def text : Action → String
  | .ran _ => "ran"
  | .cached => "cached"
  | .skipped => "skipped"
  | .invalidated => "invalidated"

def isRun : Action → Bool
  | .ran _ => true
  | _ => false

end Action

structure Event where
  pass : String
  action : Action
deriving DecidableEq, Repr

structure Trace where
  events : Array Event
deriving DecidableEq, Repr

namespace Trace

def empty : Trace :=
  ⟨#[]⟩

def size (trace : Trace) : Nat :=
  trace.events.size

def record (trace : Trace) (event : Event) : Trace :=
  ⟨trace.events.push event⟩

/-- The events in the order in which they were recorded. -/
def toList (trace : Trace) : List Event :=
  trace.events.toList

@[simp] theorem toList_empty : empty.toList = [] :=
  rfl

@[simp] theorem toList_record (trace : Trace) (event : Event) :
    (trace.record event).toList = trace.toList ++ [event] := by
  simp [toList, record]

/-- The names of the passes that ran, one for each run, in order. -/
def executed (trace : Trace) : List String :=
  (trace.toList.filter fun event => event.action.isRun).map Event.pass

/-- How often a pass ran. -/
def runCount (trace : Trace) (pass : String) : Nat :=
  trace.executed.count pass

/-- How often each pass ran, of those that ran at all. -/
def runCounts (trace : Trace) : List (String × Nat) :=
  trace.executed.eraseDups.map fun pass => (pass, trace.runCount pass)

end Trace

end PassScheduler
