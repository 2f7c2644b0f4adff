import TemplateLexer.Json.Skip
import TemplateLexer.Proofs.Json.Literal

/-!
# The grammar of JSON

The texts that are JSON values, said without any reader: words, numerals and
strings, and what brackets enclose, with blanks wherever JSON allows them.  A
string is a sequence of plain characters and escapes.  Where it has to mean a
text, the escapes of surrogates must come in pairs; as a part of some value it
is well formed without that.
-/

namespace TemplateLexer

namespace Json

abbrev Blanks :=
  { blanks : Text // ∀ c ∈ blanks, isBlank c = true }

def Blanks.none : Blanks :=
  ⟨[], by simp⟩

def letterMeanings : List (Char × Char) :=
  [('"', '"'), ('\\', '\\'), ('/', '/'), ('b', '\x08'), ('f', '\x0c'), ('n', '\n'), ('r', '\r'),
    ('t', '\t')]

inductive IsEscapeFor (c : Char) : Text → Prop where
  | letter (name : Char) (known : (name, c) ∈ letterMeanings) : IsEscapeFor c [name]
  | code (first second third fourth : Char)
      (value : hex4? first second third fourth = some c.toNat) :
      IsEscapeFor c ['u', first, second, third, fourth]
  | surrogates (first second third fourth fifth sixth seventh eighth : Char)
      (leading trailing : Nat) (value : hex4? first second third fourth = some leading)
      (value' : hex4? fifth sixth seventh eighth = some trailing)
      (isLeading : 0xD800 ≤ leading ∧ leading < 0xDC00)
      (isTrailing : 0xDC00 ≤ trailing ∧ trailing < 0xE000)
      (meant : c.toNat = (leading - 0xD800) * 0x400 + (trailing - 0xDC00) + 0x10000) :
      IsEscapeFor c
        ['u', first, second, third, fourth, '\\', 'u', fifth, sixth, seventh, eighth]

/-- The code, between the quotes of a string, means the text. -/
inductive Spells : Text → Text → Prop where
  | nil : Spells [] []
  | plain {code text : Text} (c : Char) (plain : IsPlain c) (rest : Spells code text) :
      Spells (c :: code) (c :: text)
  | escaped {escape code text : Text} (c : Char) (escape_for : IsEscapeFor c escape)
      (rest : Spells code text) : Spells ('\\' :: (escape ++ code)) (c :: text)

theorem spells_of_isPlain {text : Text} (h : ∀ c ∈ text, IsPlain c) : Spells text text := by
  induction text with
  | nil => exact .nil
  | cons c text ih =>
      rw [List.forall_mem_cons] at h
      exact .plain c h.1 (ih h.2)

/-- The code may stand between the quotes of a string. -/
inductive IsStringCode : Text → Prop where
  | nil : IsStringCode []
  | plain {code : Text} (c : Char) (plain : IsPlain c) (rest : IsStringCode code) :
      IsStringCode (c :: code)
  | letter {code : Text} (name meant : Char) (known : (name, meant) ∈ letterMeanings)
      (rest : IsStringCode code) : IsStringCode ('\\' :: name :: code)
  | unit {code : Text} (first second third fourth : Char) (value : Nat)
      (value_eq : hex4? first second third fourth = some value) (rest : IsStringCode code) :
      IsStringCode ('\\' :: 'u' :: first :: second :: third :: fourth :: code)

def IsDigits (digits : Text) : Prop :=
  digits ≠ [] ∧ ∀ c ∈ digits, c.isDigit = true

def IsWhole (digits : Text) : Prop :=
  IsDigits digits ∧ (digits = ['0'] ∨ digits.head? ≠ some '0')

inductive IsFraction : Text → Prop where
  | none : IsFraction []
  | digits {digits : Text} (digits_of : IsDigits digits) : IsFraction ('.' :: digits)

inductive IsExponent : Text → Prop where
  | none : IsExponent []
  | unsigned {digits : Text} (mark : Char) (mark_of : mark = 'e' ∨ mark = 'E')
      (digits_of : IsDigits digits) : IsExponent (mark :: digits)
  | signed {digits : Text} (mark sign : Char) (mark_of : mark = 'e' ∨ mark = 'E')
      (sign_of : sign = '+' ∨ sign = '-') (digits_of : IsDigits digits) :
      IsExponent (mark :: sign :: digits)

inductive IsMagnitude : Text → Prop where
  | mk {whole fraction exponent : Text} (whole_of : IsWhole whole)
      (fraction_of : IsFraction fraction) (exponent_of : IsExponent exponent) :
      IsMagnitude (whole ++ (fraction ++ exponent))

inductive IsScalar : Text → Prop where
  | nullWord : IsScalar ['n', 'u', 'l', 'l']
  | trueWord : IsScalar ['t', 'r', 'u', 'e']
  | falseWord : IsScalar ['f', 'a', 'l', 's', 'e']
  | number {numeral : Text} (magnitude : IsMagnitude numeral) : IsScalar numeral
  | negative {numeral : Text} (magnitude : IsMagnitude numeral) : IsScalar ('-' :: numeral)
  | string {code : Text} (code_of : IsStringCode code) : IsScalar ('"' :: (code ++ ['"']))

def Enclosure.opener : Enclosure → Char
  | array => '['
  | object => '{'

/-- What stands in front of each value: nothing in an array, and in an object a key and a colon. -/
inductive IsKey : Enclosure → Text → Prop where
  | array : IsKey .array []
  | object {code : Text} (before after : Blanks) (code_of : IsStringCode code) :
      IsKey .object (before.val ++ '"' :: (code ++ '"' :: (after.val ++ [':'])))

/-- What the grammar speaks of: one value, or the items between the brackets of an enclosure. -/
inductive Form where
  | value
  | items (enclosure : Enclosure)
  deriving DecidableEq, Repr

inductive IsJson : Form → Text → Prop where
  | scalar {text : Text} (scalar : IsScalar text) : IsJson .value text
  | empty (enclosure : Enclosure) (inside : Blanks) :
      IsJson .value (enclosure.opener :: (inside.val ++ [enclosure.closer]))
  | enclosed {items : Text} (enclosure : Enclosure) (items_of : IsJson (.items enclosure) items) :
      IsJson .value (enclosure.opener :: (items ++ [enclosure.closer]))
  | last {enclosure : Enclosure} {key value : Text} (key_of : IsKey enclosure key)
      (before after : Blanks) (value_of : IsJson .value value) :
      IsJson (.items enclosure) (key ++ (before.val ++ (value ++ after.val)))
  | more {enclosure : Enclosure} {key value items : Text} (key_of : IsKey enclosure key)
      (before after : Blanks) (value_of : IsJson .value value)
      (items_of : IsJson (.items enclosure) items) :
      IsJson (.items enclosure) (key ++ (before.val ++ (value ++ (after.val ++ ',' :: items))))

def IsValue (text : Text) : Prop :=
  IsJson .value text

end Json

end TemplateLexer
