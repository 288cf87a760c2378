import Workflow.Number.Rounding

/-! Doubles as exact numbers: taking one apart, and the double nearest to a quotient. -/

namespace Workflow.Number

/-- What a double stands for: a finite one is `mantissa * 2 ^ exponent` with its sign. -/
inductive Double where
  | finite (negative : Bool) (mantissa : Nat) (exponent : Int)
  | infinite (negative : Bool)
  | nan
  deriving Repr

def Double.ofFloat (x : Float) : Double :=
  let bits : Nat := x.toBits.toNat
  let negative := bits / Nat.pow 2 63 == 1
  let biased : Nat := bits / Nat.pow 2 52 % 2048
  let fraction : Nat := bits % Nat.pow 2 52
  if biased == 2047 then
    if fraction == 0 then .infinite negative else .nan
  else if biased == 0 then .finite negative fraction (-1074)
  else .finite negative (fraction + Nat.pow 2 52) ((biased : Int) - 1075)

def floatOfParts (negative : Bool) (biased fraction : Nat) : Float :=
  Float.ofBits (UInt64.ofNat ((if negative then Nat.pow 2 63 else 0) + biased * Nat.pow 2 52 + fraction))

def infinity (negative : Bool) : Float := floatOfParts negative 2047 0

/-- The nearest double, a tie to the even one; beyond the greatest double it is infinite. The
denominator is positive. -/
def nearestDouble (negative : Bool) (r : Ratio) : Float :=
  if r.num == 0 then floatOfParts negative 0 0
  else
    let exponent := max (r.binaryMagnitude - 52) (-1074)
    let mantissa := (r.scale 2 (-exponent)).round
    if mantissa < Nat.pow 2 52 then floatOfParts negative 0 mantissa
    else
      let carried := mantissa == Nat.pow 2 53
      let biased := (exponent + 1075).toNat + (if carried then 1 else 0)
      if biased ≥ 2047 then infinity negative
      else floatOfParts negative biased (if carried then 0 else mantissa - Nat.pow 2 52)

/-- The nearest double of a whole number, or none when it is out of range. -/
def floatOfInt? (n : Int) : Option Float :=
  let x := nearestDouble (n < 0) ⟨n.natAbs, 1⟩
  if x.isInf then none else some x

/-- The whole part of a finite double, cut toward zero. -/
def Double.truncate? : Double → Option Int
  | .finite negative mantissa exponent =>
    let whole := ((Ratio.mk mantissa 1).scale 2 exponent).floor
    some (if negative then -(whole : Int) else whole)
  | _ => none

/-- The nearest whole number, a half to the even one. -/
def Double.round? : Double → Option Int
  | .finite negative mantissa exponent =>
    let whole := ((Ratio.mk mantissa 1).scale 2 exponent).round
    some (if negative then -(whole : Int) else whole)
  | _ => none

/-- A whole number against a double, exactly; none when the double is not a number. -/
def compareIntFloat? (n : Int) (x : Float) : Option Ordering :=
  match Double.ofFloat x with
  | .nan => none
  | .infinite negative => some (if negative then .gt else .lt)
  | .finite negative mantissa exponent =>
    let r := (Ratio.mk mantissa 1).scale 2 exponent
    let signed : Int := if negative then -(r.num : Int) else r.num
    some (compare (n * r.den) signed)

def compareFloat? (x y : Float) : Option Ordering :=
  if x < y then some .lt else if x == y then some .eq else if y < x then some .gt else none

end Workflow.Number
