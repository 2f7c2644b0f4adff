import TemplateLexer.Text

/-!
# Kinds of tags and their delimiters

A tag stands between an opener and the closer of the same kind.  The three
openers are distinct and of equal length, so no text begins with two of them.
-/

namespace TemplateLexer

inductive TagKind where
  | var
  | block
  | comment
  deriving DecidableEq, Repr

namespace TagKind

def opener : TagKind → Text
  | var => ['{', '{']
  | block => ['{', '%']
  | comment => ['{', '#']

def closer : TagKind → Text
  | var => ['}', '}']
  | block => ['%', '}']
  | comment => ['#', '}']

def all : List TagKind := [var, block, comment]

def openers : List Text := all.map opener

def ofOpener? (text : Text) : Option TagKind :=
  all.find? fun kind => kind.opener == text

def startingWith? (text : Text) : Option TagKind :=
  all.find? fun kind => kind.opener.isPrefixOf text

def name : TagKind → Text
  | var => "variable".toList
  | block => "block".toList
  | comment => "comment".toList

theorem mem_all (kind : TagKind) : kind ∈ all := by
  cases kind <;> decide

theorem ofOpener?_opener (kind : TagKind) : ofOpener? kind.opener = some kind := by
  cases kind <;> rfl

theorem opener_ne_nil (kind : TagKind) : kind.opener ≠ [] := by
  cases kind <;> simp [opener]

theorem closer_ne_nil (kind : TagKind) : kind.closer ≠ [] := by
  cases kind <;> simp [closer]

end TagKind

end TemplateLexer
