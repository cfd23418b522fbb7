import PassScheduler.Json.Writer
import PassScheduler.Schedule.Trace

/-!
Contract: a trace as a document, one object for each event.

Does not own: the layout of documents.
-/

namespace PassScheduler

/-- An event: its pass, what was decided, and for a run whether it changed anything. -/
def Event.document (event : Event) : Json.Document :=
  let changed := match event.action with
    | .ran changed => [("changed", .bool changed)]
    | _ => []
  .object ([("pass", .string event.pass), ("action", .string event.action.text)] ++ changed)

/-- A trace in indented form. -/
def Trace.json (trace : Trace) : String :=
  Json.pretty (.array (trace.toList.map Event.document))

end PassScheduler
