import TemplateLexer.Lexer

/-!
# Lexers in use

A session holds one lexer and a stream of its tokens, with one saved stream to
go back to.  Starting the tokens again replaces the current stream only, and
lexing the whole text at once touches neither.
-/

namespace TemplateLexer

namespace Lexer

structure Session where
  lexer : Lexer
  stream : StreamSession TokenStream
  deriving DecidableEq, Repr

namespace Session

inductive Step where
  | stream (step : StreamSession.Step)
  | tokens
  | tokenize
  | source
  | options
  deriving DecidableEq, Repr

inductive Answer where
  | stream (answer : StreamSession.Answer (Except LexError Token))
  | started
  | lexed (result : Except LexError (List Token))
  | source (source : Text)
  | options (options : Options)

def start (lexer : Lexer) : Session :=
  ⟨lexer, StreamSession.start lexer.tokens⟩

def step (session : Session) : Step → Answer × Session
  | .stream step =>
      let (answer, stream) := session.stream.step step
      (.stream answer, { session with stream })
  | .tokens =>
      (.started,
        { session with stream := { session.stream with current := session.lexer.tokens } })
  | .tokenize => (.lexed session.lexer.tokenize, session)
  | .source => (.source session.lexer.source, session)
  | .options => (.options session.lexer.options, session)

def run (session : Session) : List Step → List Answer
  | [] => []
  | first :: steps =>
      let (answer, session) := session.step first
      answer :: session.run steps

end Session

end Lexer

end TemplateLexer
