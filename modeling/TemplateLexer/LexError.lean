import TemplateLexer.TagKind

/-!
# Errors of the lexer

An error says what is wrong with a tag and where the tag begins.  In the
message the chunk or the markers stand as they are, without escapes.
-/

namespace TemplateLexer

inductive LexErrorKind where
  | unterminatedTag (opener closer : Text)
  | malformedTag (chunk : Text)
  deriving DecidableEq, Repr

structure LexError where
  kind : LexErrorKind
  offset : Nat
  deriving DecidableEq, Repr

def LexErrorKind.message : LexErrorKind → Text
  | .unterminatedTag opener closer =>
      "unterminated tag: `".toList ++ opener ++ "` is never closed by `".toList ++
        closer ++ "`".toList
  | .malformedTag chunk =>
      "malformed tag `".toList ++ chunk ++
        "`: shorter than its delimiters".toList

namespace LexError

def message (error : LexError) : Text :=
  error.kind.message ++ " at byte ".toList ++ Nat.toDigits 10 error.offset

def unterminated (kind : TagKind) (offset : Nat) : LexError :=
  ⟨.unterminatedTag kind.opener kind.closer, offset⟩

def malformed (chunk : Text) (offset : Nat) : LexError :=
  ⟨.malformedTag chunk, offset⟩

end LexError

end TemplateLexer
