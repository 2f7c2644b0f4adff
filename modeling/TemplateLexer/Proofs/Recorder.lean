import TemplateLexer.Log

/-!
# What an action reports

An action reports some events when, whatever has been recorded before, it adds
those of them that the recording keeps and changes nothing else.  Reports of
actions that follow each other add up, so what a whole run has recorded is read
off its parts.  A level threshold leaves out the events below it and has no
other effect.
-/

namespace TemplateLexer

namespace Recording

def add (recording : Recording) (events : List Event) : Recording :=
  { recording with
    entries := recording.entries ++
      ((events.filter fun event => recording.keeps event.level).map
        fun event => LogEntry.event event recording.insideSpan).toArray }

variable {recording : Recording} {first second : List Event}

@[simp] theorem add_nil : recording.add [] = recording := by
  simp [add]

theorem add_add : (recording.add first).add second = recording.add (first ++ second) := by
  simp [add, keeps]
  rfl

end Recording

namespace Recorder

variable {α β : Type}

theorem run_bind (action : Recorder α) (next : α → Recorder β) (recording : Recording) :
    (action >>= next).run recording =
      (next (action.run recording).1).run (action.run recording).2 := rfl

/-- Whatever has been recorded, the action has the result and adds the events. -/
def Reports (action : Recorder α) (result : α) (events : List Event) : Prop :=
  ∀ recording, action.run recording = (result, recording.add events)

variable {action : Recorder α} {result : α} {events : List Event}

theorem reports_pure (result : α) : Reports (pure result) result [] := by
  intro recording
  rw [Recording.add_nil]
  rfl

theorem reports_emit (event : Event) : Reports (EventSink.emit event) () [event] := by
  intro recording
  change ((), if recording.keeps event.level then _ else _) = _
  cases hkeeps : recording.keeps event.level <;> simp [Recording.add, hkeeps]

theorem Reports.bind {next : α → Recorder β} {last : β} {more : List Event}
    (h : Reports action result events) (hnext : Reports (next result) last more) :
    Reports (action >>= next) last (events ++ more) := by
  intro recording
  rw [run_bind, h recording, hnext, Recording.add_add]

def isKept (threshold : Level) (entry : LogEntry) : Bool :=
  threshold.rank ≤ entry.level.rank

theorem filter_isKept_map_event (threshold : Level) (events : List Event) (insideSpan : Bool) :
    (events.map fun event => LogEntry.event event insideSpan).filter (isKept threshold) =
      (events.filter fun event => threshold.rank ≤ event.level.rank).map
        fun event => LogEntry.event event insideSpan := by
  rw [List.filter_map]
  rfl

theorem record_of_reports (threshold : Level) (h : Reports action result events) :
    record threshold action =
      (result, (events.map fun event => .event event false).filter (isKept threshold)) := by
  rw [record, h, filter_isKept_map_event]
  simp [Recording.add, Recording.keeps]

theorem run_within (span : Span) (body : Recorder α) (recording : Recording) :
    (within span body).run recording =
      if recording.keeps span.level then
        let (result, after) := body.run { recording with
          insideSpan := true, entries := recording.entries.push (.span span) }
        (result, { after with insideSpan := recording.insideSpan })
      else body.run recording := by
  rw [within, run_bind]
  change (ite (recording.keeps span.level = true) _ _ : Recorder α).run recording = _
  split <;> rfl

theorem rank_event_le_rank_span (event : Event) (span : Span) :
    event.level.rank ≤ span.level.rank := by
  cases span
  cases event <;> simp [Event.level, Span.level, Level.rank]

theorem record_within_of_reports (threshold : Level) (span : Span)
    (h : Reports action result events) :
    record threshold (within span action) =
      (result,
        (.span span :: events.map fun event => .event event true).filter (isKept threshold)) := by
  rw [record, run_within, h, h, List.filter_cons, filter_isKept_map_event]
  by_cases hspan : threshold.rank ≤ span.level.rank
  · simp [Recording.add, Recording.keeps, isKept, LogEntry.level, hspan]
  · -- A threshold that leaves the span out leaves out all that is emitted in it.
    have hevents : (events.filter fun event => threshold.rank ≤ event.level.rank) = [] := by
      rw [List.filter_eq_nil_iff]
      intro event _ hkept
      have hlevel := rank_event_le_rank_span event span
      simp only [decide_eq_true_eq] at hkept
      omega
    simp [Recording.add, Recording.keeps, isKept, LogEntry.level, hspan, hevents]

end Recorder

end TemplateLexer
