/-!
# Binary floating point in exact arithmetic

The numbers `significand * 2 ^ exponent` of the binary64 format, without sign,
infinities or NaN.  Every operation computes an exact quotient of natural
numbers and rounds it once, to the nearest representable number and, of two
equally near, to the one with the even significand.  A quotient beyond the
greatest representable number has no result.
-/

namespace TemplateLexer

structure Binary64 where
  significand : Nat
  exponent : Int
  deriving DecidableEq, Repr

namespace Binary64

def minExponent : Int := -1074

def maxExponent : Int := 971

def isZero (x : Binary64) : Bool :=
  x.significand == 0

def roundHalfEven (numerator denominator : Nat) : Nat :=
  let quotient := numerator / denominator
  let twice := 2 * (numerator % denominator)
  if twice < denominator then quotient
  else if twice > denominator then quotient + 1
  else quotient + quotient % 2

def unscale (numerator denominator : Nat) (exponent : Int) : Nat × Nat :=
  (numerator * Nat.pow 2 (-exponent).toNat, denominator * Nat.pow 2 exponent.toNat)

def exponentOf (numerator denominator : Nat) : Int :=
  let estimate : Int := (numerator.log2 : Int) - denominator.log2 - 53
  let (top, bottom) := unscale numerator denominator estimate
  max minExponent (if top / bottom < Nat.pow 2 53 then estimate else estimate + 1)

def ofRatio? (numerator denominator : Nat) : Option Binary64 :=
  if numerator = 0 then some ⟨0, minExponent⟩
  else
    let exponent := exponentOf numerator denominator
    let (top, bottom) := unscale numerator denominator exponent
    let rounded := roundHalfEven top bottom
    let result : Binary64 :=
      if rounded = Nat.pow 2 53 then ⟨Nat.pow 2 52, exponent + 1⟩ else ⟨rounded, exponent⟩
    if result.exponent ≤ maxExponent then some result else none

def ratio (x : Binary64) : Nat × Nat :=
  (x.significand * Nat.pow 2 x.exponent.toNat, Nat.pow 2 (-x.exponent).toNat)

def mul? (x y : Binary64) : Option Binary64 :=
  ofRatio? (x.ratio.1 * y.ratio.1) (x.ratio.2 * y.ratio.2)

def div? (x y : Binary64) : Option Binary64 :=
  ofRatio? (x.ratio.1 * y.ratio.2) (x.ratio.2 * y.ratio.1)

def powTen? (places : Nat) : Option Binary64 :=
  ofRatio? (Nat.pow 10 places) 1

def maxPlaces : Nat := 308

def shiftDown? (x : Binary64) (places : Nat) : Option Binary64 := do
  if places ≤ maxPlaces then x.div? (← powTen? places)
  else if x.isZero then some x
  else shiftDown? (← x.div? (← powTen? maxPlaces)) (places - maxPlaces)
termination_by places
decreasing_by simp only [maxPlaces] at *; omega

/--
The number `significand * 10 ^ exponent`, the significand being rounded first
and the product or quotient after it.
-/
def ofDecimal? (significand : Nat) (exponent : Int) : Option Binary64 := do
  let x ← ofRatio? significand 1
  if exponent < 0 then x.shiftDown? (-exponent).toNat
  else if exponent ≤ maxPlaces then x.mul? (← powTen? exponent.toNat)
  else if x.isZero then some x
  else none

end Binary64

end TemplateLexer
