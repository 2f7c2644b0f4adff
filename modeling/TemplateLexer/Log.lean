import TemplateLexer.Token

/-!
# What the lexer reports while it works

The lexer reports events, and the span within which it lexes a whole text.
Where the reports go is the choice of the monad it runs in: an `EventSink`
either drops them, as `Id` does, or keeps them, as `Recorder` does.  A
recorder keeps what is at or above its threshold, in the order of emission,
and notes for each event whether it was emitted inside a recorded span.
-/

namespace TemplateLexer

inductive Level where
  | trace
  | debug
  | info
  | warn
  | error
  deriving DecidableEq, Repr

namespace Level

def rank : Level → Nat
  | trace => 0
  | debug => 1
  | info => 2
  | warn => 3
  | error => 4

def name : Level → Text
  | trace => "TRACE".toList
  | debug => "DEBUG".toList
  | info => "INFO".toList
  | warn => "WARN".toList
  | error => "ERROR".toList

def all : List Level := [trace, debug, info, warn, error]

end Level

inductive FieldValue where
  | text (value : Text)
  | number (value : Nat)
  deriving DecidableEq, Repr

abbrev Fields := List (Text × FieldValue)

inductive Event where
  | lexedTag (token : Token) (offset : Nat)
  | malformedTag (chunk : Text) (offset : Nat)
  | unterminatedTag (opener : Text) (offset : Nat)
  | lexedTemplate (count : Nat)
  deriving DecidableEq, Repr

namespace Event

def level : Event → Level
  | lexedTag _ _ => .trace
  | malformedTag _ _ => .debug
  | unterminatedTag _ _ => .debug
  | lexedTemplate _ => .debug

def message : Event → Text
  | lexedTag _ _ => "cooked tag".toList
  | malformedTag _ _ => "malformed tag".toList
  | unterminatedTag _ _ => "unterminated tag".toList
  | lexedTemplate _ => "tokenized template".toList

def fields : Event → Fields
  | lexedTag token offset =>
      [("token".toList, .text token.display), ("offset".toList, .number offset)]
  | malformedTag chunk offset =>
      [("chunk".toList, .text chunk), ("offset".toList, .number offset)]
  | unterminatedTag opener offset =>
      [("open".toList, .text opener), ("offset".toList, .number offset)]
  | lexedTemplate count => [("count".toList, .number count)]

end Event

inductive Span where
  | tokenize (length : Nat)
  deriving DecidableEq, Repr

namespace Span

def level : Span → Level
  | tokenize _ => .debug

def name : Span → Text
  | tokenize _ => "tokenize".toList

def fields : Span → Fields
  | tokenize length => [("len".toList, .number length)]

end Span

/-- A monad in which events can be emitted, also within a span. -/
class EventSink (m : Type → Type) where
  emit : Event → m Unit
  within {α : Type} : Span → m α → m α

instance : EventSink Id where
  emit _ := pure ()
  within _ body := body

inductive LogEntry where
  | span (opened : Span)
  | event (emitted : Event) (insideSpan : Bool)
  deriving DecidableEq, Repr

def LogEntry.level : LogEntry → Level
  | span opened => opened.level
  | event emitted _ => emitted.level

inductive LogLine where
  | span (name : Text) (level : Level) (fields : Fields)
  | event (message : Text) (level : Level) (fields : Fields) (insideSpan : Bool)
  deriving DecidableEq, Repr

def LogEntry.line : LogEntry → LogLine
  | span opened => .span opened.name opened.level opened.fields
  | event emitted insideSpan =>
      .event emitted.message emitted.level emitted.fields insideSpan

structure Recording where
  threshold : Level
  insideSpan : Bool := false
  entries : Array LogEntry := #[]
  deriving Repr

def Recording.keeps (recording : Recording) (level : Level) : Bool :=
  recording.threshold.rank ≤ level.rank

abbrev Recorder := StateM Recording

namespace Recorder

def emit (event : Event) : Recorder Unit :=
  modify fun recording =>
    if recording.keeps event.level then
      { recording with
        entries := recording.entries.push (.event event recording.insideSpan) }
    else recording

def within {α : Type} (span : Span) (body : Recorder α) : Recorder α := do
  let recording ← get
  if recording.keeps span.level then
    set { recording with
      insideSpan := true, entries := recording.entries.push (.span span) }
    let result ← body
    modify fun after => { after with insideSpan := recording.insideSpan }
    return result
  else body

instance : EventSink Recorder where
  emit := emit
  within := within

def record {α : Type} (threshold : Level) (action : Recorder α) : α × List LogEntry :=
  let (result, recording) := action.run { threshold }
  (result, recording.entries.toList)

end Recorder

end TemplateLexer
