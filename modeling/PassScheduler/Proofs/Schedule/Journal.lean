import PassScheduler.Schedule.Demand

/-!
Contract: what the work on a session adds to its journal and to its trace.

Owns:
- the event of the trace that a journal entry stands for;
- `Records`, which says that one session is another with some entries added, and that the trace
  got exactly the events of these entries;
- the entries that every small step on a session adds.

Does not own: which steps a demand takes.
-/

namespace PassScheduler

/-- The event that a notice tells of, if it tells of a decision about a pass. -/
def Notice.event? : Notice → Option Event
  | .skipped pass _ => some ⟨pass, .skipped⟩
  | .cached pass => some ⟨pass, .cached⟩
  | .ran pass changed => some ⟨pass, .ran changed⟩
  | .invalidated pass => some ⟨pass, .invalidated⟩
  | _ => none

def JournalEntry.event? : JournalEntry → Option Event
  | .noticed notice => notice.event?
  | _ => none

namespace Session

variable {Instance World : Type}

/-- The journal from its first entry on. -/
def history (session : Session Instance World) : List JournalEntry :=
  session.journal.toList

/-- The second session is the first with these entries added to its journal and with their events
added to its trace. -/
structure Records (before : Session Instance World) (entries : List JournalEntry)
    (after : Session Instance World) : Prop where
  history : after.history = before.history ++ entries
  trace : after.trace.toList = before.trace.toList ++ entries.filterMap JournalEntry.event?

namespace Records

theorem refl (session : Session Instance World) : session.Records [] session :=
  ⟨by simp, by simp⟩

theorem trans {first second third : Session Instance World} {entries more : List JournalEntry}
    (left : first.Records entries second) (right : second.Records more third) :
    first.Records (entries ++ more) third where
  history := by rw [right.history, left.history, List.append_assoc]
  trace := by rw [right.trace, left.trace, List.filterMap_append, List.append_assoc]

end Records

theorem records_note (session : Session Instance World) {entry : JournalEntry}
    (silent : entry.event? = none) :
    session.Records [entry] (session.note entry) where
  history := by simp [Session.history, note]
  trace := by simp [note, silent]

theorem records_reset (session : Session Instance World) :
    session.Records [.reset] session.reset :=
  have noted := session.records_note (rfl : JournalEntry.reset.event? = none)
  ⟨noted.history, noted.trace⟩

theorem records_setLevel (session : Session Instance World) (level : Level) :
    session.Records [.levelSet level] (session.setLevel level) :=
  have noted := session.records_note (rfl : (JournalEntry.levelSet level).event? = none)
  ⟨noted.history, noted.trace⟩

theorem records_demanded (session : Session Instance World) (pass : String) :
    session.Records [.demanded pass] (session.note (.demanded pass)) :=
  session.records_note rfl

theorem records_told (session : Session Instance World) {notice : Notice}
    (silent : notice.event? = none) :
    session.Records [.noticed notice] (session.notice notice) :=
  session.records_note silent

/-- Telling of a decision and recording it are one step. -/
theorem records_decision (session : Session Instance World) {notice : Notice} {event : Event}
    (tells : notice.event? = some event) :
    session.Records [.noticed notice] ((session.notice notice).record event) where
  history := by simp [Session.history, Session.notice, note, record]
  trace := by simp [Session.notice, note, record, JournalEntry.event?, tells]

theorem records_cached (session : Session Instance World) (pass : String) :
    session.Records [.noticed (.cached pass)] (session.recordCached pass) :=
  session.records_decision rfl

theorem records_skipped (session : Session Instance World) (descriptor : Descriptor) :
    session.Records [.noticed (.skipped descriptor.name descriptor.minLevel)]
      (session.recordSkipped descriptor) :=
  session.records_decision rfl

theorem records_ran (session : Session Instance World) (pass : String) (changed : Bool) :
    session.Records [.noticed (.ran pass changed)] (session.recordRan pass changed) :=
  session.records_decision rfl

end Session

end PassScheduler
