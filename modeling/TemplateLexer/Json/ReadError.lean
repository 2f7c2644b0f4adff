import TemplateLexer.Binary64.Shortest
import TemplateLexer.Text.Quoted

/-!
# Why a JSON text cannot be read

A text ends too early, breaks the rules of JSON, or says something else than
what is asked for.  The third carries what was found and what was expected,
and its message names both.
-/

namespace TemplateLexer

namespace Json

inductive Found where
  | null
  | boolean (value : Bool)
  | integer (value : Int)
  | floating (negative : Bool) (magnitude : Binary64)
  | string (value : Text)
  | sequence
  | map
  | bareName
  deriving DecidableEq, Repr

inductive Mismatch where
  | wrongType (found : Found) (expected : Text)
  | unknownName (name : Text) (expected : List Text)
  | duplicateField (name : Text)
  deriving DecidableEq, Repr

inductive ReadError where
  | cutShort
  | malformed
  | rejected (cause : Mismatch)
  deriving DecidableEq, Repr

def Found.description : Found → Text
  | null => "null".toList
  | boolean value => "boolean `".toList ++ (toString value).toList ++ ['`']
  | integer value => "integer `".toList ++ (toString value).toList ++ ['`']
  | floating negative magnitude =>
      "floating point `".toList ++ (if negative then ['-'] else []) ++
        magnitude.render ++ ['`']
  | string value => "string ".toList ++ value.quoted
  | sequence => "sequence".toList
  | map => "map".toList
  | bareName => "unit variant".toList

def alternatives (names : List Text) : Text :=
  let marked := names.map fun name => ['`'] ++ name ++ ['`']
  match marked with
  | [first, second] => first ++ " or ".toList ++ second
  | [only] => only
  | _ => "one of ".toList ++ ", ".toList.intercalate marked

def Mismatch.message : Mismatch → Text
  | wrongType found expected =>
      "invalid type: ".toList ++ found.description ++ ", expected ".toList ++ expected
  | unknownName name expected =>
      "unknown variant `".toList ++ name ++ "`, expected ".toList ++ alternatives expected
  | duplicateField name => "duplicate field `".toList ++ name ++ ['`']

end Json

end TemplateLexer
