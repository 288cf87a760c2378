import Workflow.Number.Double

/-! Decimal digits of a double: the fewest that read back, and a given number of places. -/

namespace Workflow.Number

/-- The number `digits * 10 ^ exponent`. -/
structure Decimal where
  digits : Nat
  exponent : Int
  deriving Repr

/-- Twice the distance from four times the mantissa to each end of the interval of reals that read
as the double; at a power of two the lower neighbour is nearer. -/
def lowerGap (mantissa : Nat) (exponent : Int) : Nat :=
  if mantissa == Nat.pow 2 52 && exponent > -1074 then 1 else 2

/-- Whether a candidate on the decimal grid reads back as the double. Both sides are scaled to one
denominator; the ends belong to the interval when the mantissa is even. -/
def readsBack (mantissa : Nat) (exponent : Int) (candidate : Decimal) : Bool :=
  let c := (Ratio.mk candidate.digits 1).scale 10 candidate.exponent
  let unit := (Ratio.mk 1 1).scale 2 (exponent - 2)
  let low := (4 * mantissa - lowerGap mantissa exponent) * unit.num * c.den
  let high := (4 * mantissa + 2) * unit.num * c.den
  let here := c.num * unit.den
  if mantissa % 2 == 0 then low ≤ here && here ≤ high else low < here && here < high

/-- The neighbours of the double on the grid of `10 ^ place`, the nearer one first. -/
def neighbours (value : Ratio) (place : Int) : List Decimal :=
  let scaled := value.scale 10 (-place)
  let near := scaled.round
  let floor := scaled.floor
  let other := if near == floor then floor + 1 else floor
  [⟨near, place⟩, ⟨other, place⟩]

def shortestFrom (mantissa : Nat) (exponent : Int) (value : Ratio) (top : Int) :
    (more : Nat) → (count : Int) → Decimal
  | 0, count => ⟨(value.scale 10 (count - 1 - top)).round, top - count + 1⟩
  | more + 1, count =>
    match (neighbours value (top - count + 1)).find? (readsBack mantissa exponent) with
    | some found => found
    | none => shortestFrom mantissa exponent value top more (count + 1)

def Decimal.normalise : (steps : Nat) → Decimal → Decimal
  | 0, d => d
  | steps + 1, d =>
    if d.digits != 0 && d.digits % 10 == 0 then Decimal.normalise steps ⟨d.digits / 10, d.exponent + 1⟩
    else d

/-- The fewest digits that read back as a positive double, and of those the nearest to it. -/
def shortest (mantissa : Nat) (exponent : Int) : Decimal :=
  let value := (Ratio.mk mantissa 1).scale 2 exponent
  (shortestFrom mantissa exponent value value.decimalMagnitude 16 1).normalise 400

/-- A number rounded to a count of places after the point, as the digits without the point. -/
def placed (value : Ratio) (places : Nat) : Nat :=
  (value.scale 10 places).round

/-- A number rounded to a count of significant digits: the digits, and the exponent of the first. -/
def significant (value : Ratio) (count : Nat) : Nat × Int :=
  if value.num == 0 then (0, 0)
  else
    let top := value.decimalMagnitude
    let digits := (value.scale 10 ((count : Int) - 1 - top)).round
    if digits == Nat.pow 10 count then (Nat.pow 10 (count - 1), top + 1) else (digits, top)

end Workflow.Number
