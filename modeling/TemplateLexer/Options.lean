import TemplateLexer.Text.Trim

/-!
# Options of the lexer

Two independent choices: what becomes of a tag that cannot be lexed cleanly,
and how the payloads of tags are trimmed.
-/

namespace TemplateLexer

/--
What becomes of an unterminated or malformed tag: an error, the token that the
legacy rules give it, or its raw text.
-/
inductive Recovery where
  | strict
  | legacy
  | lossless
  deriving DecidableEq, Repr

structure Options where
  recovery : Recovery := .strict
  trim : TrimMode := .standard
  deriving DecidableEq, Repr

def Recovery.name : Recovery → Text
  | .strict => "strict".toList
  | .legacy => "legacy".toList
  | .lossless => "lossless".toList

def TrimMode.name : TrimMode → Text
  | .standard => "standard".toList
  | .legacy => "legacy".toList

def Recovery.all : List Recovery := [.strict, .legacy, .lossless]

def TrimMode.all : List TrimMode := [.standard, .legacy]

def Options.legacy : Options :=
  ⟨.legacy, .legacy⟩

end TemplateLexer
