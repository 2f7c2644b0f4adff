import TemplateLexer.Json.Reader

/-!
# Numbers

A numeral has a whole part, which begins with a zero only if it is zero, and
may have a fraction and an exponent.  Its value is an integer if it has
neither and fits into 64 bits, and otherwise a binary64 number.
-/

namespace TemplateLexer

namespace Json

structure Numeral where
  negative : Bool
  whole : Text
  fraction : Option Text
  exponent : Option Int
  deriving DecidableEq, Repr

def readDigits (text : Text) : Except ReadError (Text × Text) :=
  match text with
  | [] => .error .cutShort
  | c :: _ =>
      if c.isDigit then .ok (text.takeWhile Char.isDigit, text.dropWhile Char.isDigit)
      else .error .malformed

def readWhole (text : Text) : Except ReadError (Text × Text) := do
  let (digits, rest) ← readDigits text
  if digits.head? = some '0' ∧ digits.length ≠ 1 then .error .malformed
  else .ok (digits, rest)

def readFraction : Reader (Option Text)
  | '.' :: rest => do
      let (digits, rest) ← readDigits rest
      .ok (some digits, rest)
  | text => .ok (none, text)

def digitsValue (digits : Text) : Nat :=
  digits.foldl (fun value digit => 10 * value + (digit.toNat - '0'.toNat)) 0

def readSign : Text → Bool × Text
  | '+' :: rest => (false, rest)
  | '-' :: rest => (true, rest)
  | text => (false, text)

def readExponent (text : Text) : Except ReadError (Option Int × Text) :=
  match text with
  | c :: rest =>
      if c = 'e' ∨ c = 'E' then do
        let signed := readSign rest
        let (digits, rest) ← readDigits signed.2
        let magnitude : Int := digitsValue digits
        .ok (some (if signed.1 then -magnitude else magnitude), rest)
      else .ok (none, text)
  | [] => .ok (none, text)

def readNumeral (negative : Bool) (text : Text) : Except ReadError (Numeral × Text) := do
  let (whole, rest) ← readWhole text
  let (fraction, rest) ← readFraction rest
  let (exponent, rest) ← readExponent rest
  .ok (⟨negative, whole, fraction, exponent⟩, rest)

/-- The rest after a numeral behind its sign.  A numeral cut short counts as malformed here. -/
def skipNumeral (text : Text) : Except ReadError Text :=
  match readNumeral false text with
  | .ok (_, rest) => .ok rest
  | .error _ => .error .malformed

def maxUnsigned : Nat := Nat.pow 2 64 - 1

def maxNegated : Nat := Nat.pow 2 63

/--
Appends digits to a significand as long as it fits into 64 bits.  The result is
the significand and the number of digits that are left over.
-/
def appendDigits (significand : Nat) : Text → Nat × Nat
  | [] => (significand, 0)
  | digit :: rest =>
      let extended := 10 * significand + (digit.toNat - '0'.toNat)
      if extended ≤ maxUnsigned then appendDigits extended rest
      else (significand, rest.length + 1)

namespace Numeral

def magnitude? (numeral : Numeral) : Option Binary64 :=
  let fraction := numeral.fraction.getD []
  let (significand, dropped) := appendDigits 0 numeral.whole
  let (significand, ignored) := appendDigits significand fraction
  let places : Int := dropped - (fraction.length - ignored)
  Binary64.ofDecimal? significand (places + numeral.exponent.getD 0)

def integer? (numeral : Numeral) : Option Int :=
  let value := digitsValue numeral.whole
  if numeral.fraction.isSome ∨ numeral.exponent.isSome then none
  else if numeral.negative then
    if 0 < value ∧ value ≤ maxNegated then some (-value) else none
  else if value ≤ maxUnsigned then some value
  else none

def found? (numeral : Numeral) : Option Found :=
  match numeral.integer? with
  | some value => some (.integer value)
  | none => numeral.magnitude?.map (.floating numeral.negative)

end Numeral

theorem length_lt_of_readDigits {text rest digits : Text}
    (h : readDigits text = .ok (digits, rest)) : rest.length < text.length := by
  unfold readDigits at h
  split at h
  · cases h
  · next c tail =>
      split at h
      · next hdigit =>
          cases h
          rw [List.dropWhile_cons_of_pos hdigit]
          exact Nat.lt_succ_of_le (List.dropWhile_sublist _).length_le
      · cases h

theorem length_lt_of_readWhole {text rest digits : Text}
    (h : readWhole text = .ok (digits, rest)) : rest.length < text.length := by
  obtain ⟨⟨read, tail⟩, hread, h⟩ := bind_eq_ok_iff.mp h
  have hlt := length_lt_of_readDigits hread
  dsimp only at h
  split at h
  · cases h
  · cases h
    exact hlt

theorem length_le_of_readFraction {text rest : Text} {fraction : Option Text}
    (h : readFraction text = .ok (fraction, rest)) : rest.length ≤ text.length := by
  unfold readFraction at h
  split at h
  · obtain ⟨⟨digits, tail⟩, hdigits, h⟩ := bind_eq_ok_iff.mp h
    cases h
    exact Nat.le_of_lt (Nat.lt_succ_of_lt (length_lt_of_readDigits hdigits))
  · cases h
    exact Nat.le_refl _

theorem length_readSign_le (text : Text) : (readSign text).2.length ≤ text.length := by
  unfold readSign
  split <;> simp

theorem length_le_of_readExponent {text rest : Text} {exponent : Option Int}
    (h : readExponent text = .ok (exponent, rest)) : rest.length ≤ text.length := by
  unfold readExponent at h
  split at h
  · next c tail =>
      split at h
      · obtain ⟨⟨digits, behind⟩, hdigits, h⟩ := bind_eq_ok_iff.mp h
        cases h
        have := length_lt_of_readDigits hdigits
        have := length_readSign_le tail
        simp only [List.length_cons]
        omega
      · cases h
        exact Nat.le_refl _
  · cases h
    exact Nat.le_refl _

theorem length_lt_of_readNumeral {negative : Bool} {text rest : Text} {numeral : Numeral}
    (h : readNumeral negative text = .ok (numeral, rest)) : rest.length < text.length := by
  obtain ⟨⟨whole, afterWhole⟩, hwhole, h⟩ := bind_eq_ok_iff.mp h
  obtain ⟨⟨fraction, afterFraction⟩, hfraction, h⟩ := bind_eq_ok_iff.mp h
  obtain ⟨⟨exponent, afterExponent⟩, hexponent, h⟩ := bind_eq_ok_iff.mp h
  cases h
  have := length_lt_of_readWhole hwhole
  have := length_le_of_readFraction hfraction
  have := length_le_of_readExponent hexponent
  omega

theorem length_lt_of_skipNumeral {text rest : Text}
    (h : skipNumeral text = .ok rest) : rest.length < text.length := by
  unfold skipNumeral at h
  split at h
  · next hnumeral => cases h; exact length_lt_of_readNumeral hnumeral
  · cases h

end Json

end TemplateLexer
