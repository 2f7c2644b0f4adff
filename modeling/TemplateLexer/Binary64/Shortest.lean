import TemplateLexer.Binary64
import TemplateLexer.Text

/-!
# The shortest decimal that reads back

The decimals that round to a given number form an interval around it, whose
ends belong to it exactly when the significand is even.  Of the grids of
multiples of a power of ten the coarsest with a point in the interval gives
the fewest digits; if both neighbours of the number on that grid lie in the
interval the nearer one is taken, and of two equally near the even one.
-/

namespace TemplateLexer

structure Decimal where
  digits : Nat
  exponent : Int
  deriving DecidableEq, Repr

namespace Binary64

/-- The interval of what rounds to a number, and the number, over one denominator. -/
structure Neighbourhood where
  low : Nat
  value : Nat
  high : Nat
  denominator : Nat
  closed : Bool
  deriving Repr

def neighbourhood (x : Binary64) : Neighbourhood :=
  let isLeast := x.significand = Nat.pow 2 52 ∧ minExponent < x.exponent
  let scale := Nat.pow 2 (x.exponent - 2).toNat
  { low := (4 * x.significand - if isLeast then 1 else 2) * scale
    value := 4 * x.significand * scale
    high := (4 * x.significand + 2) * scale
    denominator := Nat.pow 2 (2 - x.exponent).toNat
    closed := x.significand % 2 = 0 }

def Neighbourhood.onGrid? (interval : Neighbourhood) (exponent : Int) : Option Nat :=
  let scale := Nat.pow 10 (-exponent).toNat
  let step := interval.denominator * Nat.pow 10 exponent.toNat
  let inside (point : Nat) : Bool :=
    if interval.closed then
      interval.low * scale ≤ point * step && point * step ≤ interval.high * scale
    else
      interval.low * scale < point * step && point * step < interval.high * scale
  let below := interval.value * scale / step
  let nearest := roundHalfEven (interval.value * scale) step
  if inside nearest then some nearest
  else if inside below then some below
  else if inside (below + 1) then some (below + 1)
  else none

def Neighbourhood.coarsest (interval : Neighbourhood) (exponent : Int) : Nat → Decimal
  | 0 => ⟨interval.value, exponent⟩
  | grids + 1 =>
      match interval.onGrid? exponent with
      | some point => ⟨point, exponent⟩
      | none => interval.coarsest (exponent - 1) grids

/-- The grids go from one above all numbers down to `10 ^ -1074`, which holds every number. -/
def shortest (x : Binary64) : Decimal :=
  x.neighbourhood.coarsest 309 1384

end Binary64

def Decimal.power (exponent : Int) : Text :=
  ['e', if exponent < 0 then '-' else '+'] ++ Nat.toDigits 10 exponent.natAbs

/--
The decimal in positional form from `10 ^ -5` on up to, but not including,
`10 ^ 16`, always with a point, and in scientific form elsewhere.
-/
def Decimal.render (decimal : Decimal) : Text :=
  let digits := Nat.toDigits 10 decimal.digits
  let point : Int := digits.length + decimal.exponent
  if 0 ≤ decimal.exponent ∧ point ≤ 16 then
    digits ++ List.replicate decimal.exponent.toNat '0' ++ ['.', '0']
  else if 0 < point ∧ point ≤ 16 then
    digits.take point.toNat ++ ['.'] ++ digits.drop point.toNat
  else if -5 < point ∧ point ≤ 0 then
    ['0', '.'] ++ List.replicate (-point).toNat '0' ++ digits
  else
    let fraction := digits.drop 1
    digits.take 1 ++ (if fraction.isEmpty then [] else ['.'] ++ fraction) ++
      power (point - 1)

def Binary64.render (x : Binary64) : Text :=
  if x.isZero then ['0', '.', '0'] else x.shortest.render

end TemplateLexer
