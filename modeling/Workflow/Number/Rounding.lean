/-! Rounding of exact quotients to the nearest whole number, a half to the even neighbour. -/

namespace Workflow.Number

def roundQuotient (num den : Nat) : Nat :=
  let quotient := num / den
  let rest := 2 * (num % den)
  if rest > den || (rest == den && quotient % 2 == 1) then quotient + 1 else quotient

/-- A nonnegative rational number as a numerator over a denominator. -/
structure Ratio where
  num : Nat
  den : Nat

/-- The ratio times a power of a base, of either sign. -/
def Ratio.scale (r : Ratio) (base : Nat) (exponent : Int) : Ratio :=
  if exponent ≥ 0 then ⟨r.num * Nat.pow base exponent.toNat, r.den⟩
  else ⟨r.num, r.den * Nat.pow base (-exponent).toNat⟩

def Ratio.round (r : Ratio) : Nat := roundQuotient r.num r.den

def Ratio.floor (r : Ratio) : Nat := r.num / r.den

/-- The greatest exponent whose power of the base is at most the ratio, sought upward from `low`;
`steps` bounds the search. -/
def Ratio.magnitudeFrom (r : Ratio) (base : Nat) : (steps : Nat) → (low : Int) → Int
  | 0, low => low
  | steps + 1, low =>
    if (r.scale base (-(low + 1))).num ≥ (r.scale base (-(low + 1))).den then
      r.magnitudeFrom base steps (low + 1)
    else low

/-- The exponent of the leading binary digit of a positive ratio. -/
def Ratio.binaryMagnitude (r : Ratio) : Int :=
  r.magnitudeFrom 2 3 ((Nat.log2 r.num : Int) - Nat.log2 r.den - 1)

/-- The exponent of the leading decimal digit of a positive ratio. -/
def Ratio.decimalMagnitude (r : Ratio) : Int :=
  r.magnitudeFrom 10 4 (Int.fdiv ((r.binaryMagnitude - 1) * 30103) 100000 - 1)

end Workflow.Number
