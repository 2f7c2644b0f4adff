import TemplateLexer.Json.Literal
import TemplateLexer.Json.Typed
import TemplateLexer.Token

/-!
# Tokens as JSON

A token is an object with the name of its kind as the only key and its value
as a string; the kind of a tag on its own is its name.  A token is read back
only from a string without escapes, whose value stands in the text as it is.
-/

namespace TemplateLexer

def TokenKind.name : TokenKind → Text
  | .text => "text".toList
  | .tag kind => kind.name

def TokenKind.all : List TokenKind :=
  .text :: TagKind.all.map .tag

def TagKind.choice : Json.Choice TagKind :=
  ⟨TagKind.all, TagKind.name⟩

def TokenKind.choice : Json.Choice TokenKind :=
  ⟨TokenKind.all, TokenKind.name⟩

def TagKind.toJson (kind : TagKind) : Text :=
  Json.literal kind.name

def TagKind.ofJson (text : Text) : Except Json.ReadError TagKind :=
  Json.readAll TagKind.choice.readBare text

namespace Token

def ofKind (kind : TokenKind) (value : Text) : Token :=
  match kind with
  | .text => text value
  | .tag kind => tag kind value

def toJson (token : Token) : Text :=
  Json.object [(token.kind.name, Json.literal token.value)]

def readJson : Json.Reader Token :=
  TokenKind.choice.read
    (fun _ => Json.reject (.wrongType .bareName "newtype variant".toList))
    fun kind text => (Json.readVerbatim text).map fun (value, rest) =>
      (ofKind kind value, rest)

def ofJson (text : Text) : Except Json.ReadError Token :=
  Json.readAll readJson text

end Token

end TemplateLexer
