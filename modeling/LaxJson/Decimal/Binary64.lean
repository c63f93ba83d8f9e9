import LaxJson.Decimal.Numeral

/-!
# The nearest double

`nearest?` rounds a quotient of naturals to a binary floating-point number of 64 bits:
to the nearest one, and half-way between two to the one whose last bit is zero. The
arithmetic is exact throughout.
-/
namespace LaxJson.Decimal.Binary64

/-- The natural number nearest to `num / den`; half-way between two, the even one. -/
def roundHalfEven (num den : Nat) : Nat :=
  let floor := num / den
  let twice := 2 * (num % den)
  if den < twice ∨ twice = den ∧ floor % 2 = 1 then floor + 1 else floor

/-- The quotient `num / (den * 2 ^ scale)` as a quotient of naturals. -/
def scaleBy (num den : Nat) (scale : Int) : Nat × Nat :=
  match scale with
  | .ofNat k => (num, den <<< k)
  | .negSucc k => (num <<< (k + 1), den)

/-- The exponent of the last bit of the double nearest to `num / den`: with it the quotient
has 53 bits, or fewer if the exponent would fall below the least one. -/
def lastBit (num den : Nat) : Int :=
  let low : Int := num.log2 - den.log2 - 53
  let (n, d) := scaleBy num den low
  max (-1074) (if n / d < 1 <<< 53 then low else low + 1)

/-- The encoding of the double nearest to `num / den`, unless that is infinite. Consecutive
doubles have consecutive encodings, so a carry into the exponent needs no care. -/
def nearest? (num den : Nat) : Option Nat :=
  if num = 0 then some 0
  else
    let scale := lastBit num den
    let (n, d) := scaleBy num den scale
    let bits := ((scale + 1074).toNat <<< 52) + roundHalfEven n d
    if bits < 2047 <<< 52 then some bits else none

/-- The double nearest to a decimal real, unless that is infinite. -/
def ofReal? (x : Real) : Option Float :=
  let (num, den) := match x.exponent with
    | .ofNat k => (x.coefficient * Nat.pow 10 k, 1)
    | .negSucc k => (x.coefficient, Nat.pow 10 (k + 1))
  (nearest? num den).map fun bits =>
    Float.ofBits (.ofNat (if x.negative then (1 <<< 63) + bits else bits))

end LaxJson.Decimal.Binary64
