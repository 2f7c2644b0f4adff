import TemplateLexer.TokenStream

/-!
# The lexer

A lexer is a text with options.  It yields the tokens one at a time, as a
`TokenStream`, or all at once.  Lexing all at once takes place inside a span
and ends with a report of its own unless an error ends it; apart from the
reports it does not matter which of the two is used, or how often.
-/

namespace TemplateLexer

structure Lexer where
  source : Text
  options : Options := {}
  deriving DecidableEq, Repr

namespace Lexer

def tokens (lexer : Lexer) : TokenStream :=
  ⟨Chunker.ofText lexer.source, lexer.options, false⟩

def tokenizeM {m : Type → Type} [Monad m] [EventSink m] (lexer : Lexer) :
    m (Except LexError (List Token)) :=
  EventSink.within (.tokenize lexer.source.byteLength) do
    match ← lexer.tokens.collect with
    | .error error => return .error error
    | .ok tokens =>
        EventSink.emit (.lexedTemplate tokens.length)
        return .ok tokens

def tokenize (lexer : Lexer) : Except LexError (List Token) :=
  Id.run lexer.tokenizeM

inductive Pace where
  | eager
  | stepwise
  deriving DecidableEq, Repr

def record (threshold : Level) (pace : Pace) (lexer : Lexer) :
    Except LexError (List Token) × List LogEntry :=
  Recorder.record threshold <|
    match pace with
    | .eager => lexer.tokenizeM
    | .stepwise => lexer.tokens.collect

end Lexer

def tokenize (source : Text) : Except LexError (List Token) :=
  Lexer.tokenize { source }

end TemplateLexer
