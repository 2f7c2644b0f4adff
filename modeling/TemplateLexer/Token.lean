import TemplateLexer.TagKind
import TemplateLexer.Text.Quoted
import TemplateLexer.Text.Trim

/-!
# Tokens

A token is literal text or a tag with its payload: what stands between the
delimiters, without the spaces at its ends.  The two delimiters are taken off
by position, two characters at each end, whatever these are.
-/

namespace TemplateLexer

inductive TokenKind where
  | text
  | tag (kind : TagKind)
  deriving DecidableEq, Repr

inductive Token where
  | text (value : Text)
  | tag (kind : TagKind) (value : Text)
  deriving DecidableEq, Repr

def TokenKind.displayName : TokenKind → Text
  | .text => "Text".toList
  | .tag .var => "Variable".toList
  | .tag .block => "Block".toList
  | .tag .comment => "Comment".toList

/--
What is left of a text without two characters at each end, trimmed of spaces.
A text of fewer than four characters has no such inside.
-/
def Text.payload? (mode : TrimMode) (text : Text) : Option Text := do
  let (first, _) ← text.charIndices[2]?
  let (last, _) ← text.charIndices.reverse[1]?
  let inner ← text.slice? first last
  some (inner.trim mode ' ')

namespace Token

def kind : Token → TokenKind
  | text _ => .text
  | tag kind _ => .tag kind

def value : Token → Text
  | text value => value
  | tag _ value => value

def display (token : Token) : Text :=
  token.kind.displayName ++ ['('] ++ token.value.quoted ++ [')']

/--
The token that a text makes: the tag whose opener it begins with, or the text
itself when it begins with none.  A tag too short for two delimiters makes none.
-/
def ofText? (mode : TrimMode) (text : Text) : Option Token :=
  match TagKind.startingWith? text with
  | some kind => (text.payload? mode).map (tag kind)
  | none => some (.text text)

end Token

end TemplateLexer
