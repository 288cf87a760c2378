import Workflow.Number.Double

/-! Division of doubles with a remainder that has the sign of the divisor, rounding of doubles to
decimal places, and bitwise operations on whole numbers of either sign. -/

namespace Workflow.Number

/-- A finite double from a sign and an exact magnitude. -/
def ofMagnitude (negative : Bool) (r : Ratio) : Float := nearestDouble negative r

/-- The remainder of a division that is cut toward zero. It has the sign of the dividend, and it is
exact. The divisor is not zero. -/
def cutRemainder (x y : Float) : Float :=
  match Double.ofFloat x, Double.ofFloat y with
  | .finite negative m e, .finite _ n f =>
    let low := min e f
    let a := m * Nat.pow 2 (e - low).toNat
    let b := n * Nat.pow 2 (f - low).toNat
    if b == 0 then 0.0 / 0.0
    else nearestDouble negative ((Ratio.mk (a % b) 1).scale 2 low)
  | .finite _ _ _, .infinite _ => x
  | _, _ => 0.0 / 0.0

def isNegative (x : Float) : Bool :=
  match Double.ofFloat x with
  | .finite negative _ _ => negative
  | .infinite negative => negative
  | .nan => false

def signedZero (negative : Bool) : Float := floatOfParts negative 0 0

/-- Quotient rounded down and remainder of the sign of the divisor. The divisor is not zero. -/
def floorDivision (x y : Float) : Float × Float :=
  let cut := cutRemainder x y
  let quotient := (x - cut) / y
  let (quotient, rest) :=
    if cut == 0.0 then (quotient, signedZero (isNegative y))
    else if cut.isNaN then (quotient, cut)
    else if isNegative y != isNegative cut then (quotient - 1.0, cut + y)
    else (quotient, cut)
  if quotient.isNaN then (quotient, rest)
  else if quotient == 0.0 then (signedZero (isNegative (x / y)), rest)
  else
    let floor := quotient.floor
    (if quotient - floor > 0.5 then floor + 1.0 else floor, rest)

/-- A double rounded to a count of decimal places, a half to the even neighbour. -/
def roundPlaces (x : Float) (places : Int) : Float :=
  match Double.ofFloat x with
  | .finite negative m e =>
    if places > 323 || m == 0 then x
    else if places < -308 then signedZero negative
    else
      let scaled := (((Ratio.mk m 1).scale 2 e).scale 10 places).round
      nearestDouble negative ((Ratio.mk scaled 1).scale 10 (-places))
  | _ => x

/-- A whole number rounded to a power of ten, a half to the even neighbour. -/
def roundTens (n : Int) (power : Nat) : Int :=
  let rounded := roundQuotient n.natAbs (Nat.pow 10 power) * Nat.pow 10 power
  if n < 0 then -(rounded : Int) else rounded

/-- The number whose binary digits are the opposite ones. -/
def complement (n : Int) : Int := -n - 1

/-- Both bits are set; below zero the leading digits are all ones. -/
def bitAnd (n m : Int) : Int :=
  if n ≥ 0 then
    if m ≥ 0 then (n.toNat &&& m.toNat : Nat)
    else n - (n.toNat &&& (complement m).toNat : Nat)
  else if m ≥ 0 then m - (m.toNat &&& (complement n).toNat : Nat)
  else complement ((complement n).toNat ||| (complement m).toNat : Nat)

def bitOr (n m : Int) : Int := complement (bitAnd (complement n) (complement m))

def bitXor (n m : Int) : Int := bitAnd (bitOr n m) (complement (bitAnd n m))

end Workflow.Number
