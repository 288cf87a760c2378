import Workflow.Number.Decimal

/-! The written form of numbers. A double is written with the fewest digits that read back:
positional with a fraction from 1e-4 up to 1e16, with a signed exponent of two or more digits
beyond. -/

namespace Workflow.Number

def decimalText (n : Nat) : List Char := Nat.toDigits 10 n

def padLeft (width : Nat) (fill : Char) (cs : List Char) : List Char :=
  List.replicate (width - cs.length) fill ++ cs

/-- Digits with a point before the last `places` of them. -/
def withPoint (digits places : Nat) : List Char :=
  let cs := padLeft (places + 1) '0' (decimalText digits)
  cs.take (cs.length - places) ++ (if places == 0 then [] else '.' :: cs.drop (cs.length - places))

def exponentText (mark : Char) (exponent : Int) : List Char :=
  mark :: (if exponent < 0 then '-' else '+') :: padLeft 2 '0' (decimalText exponent.natAbs)

/-- One digit, a point and the others if there are any, and the exponent of the first. -/
def scientific (digits : List Char) (exponent : Int) : List Char :=
  match digits with
  | [] => []
  | first :: rest =>
    first :: (if rest.isEmpty then [] else '.' :: rest) ++ exponentText 'e' exponent

def positional (d : Decimal) : List Char :=
  if d.exponent ≥ 0 then decimalText d.digits ++ List.replicate d.exponent.toNat '0' ++ ['.', '0']
  else withPoint d.digits (-d.exponent).toNat

def finiteText (negative : Bool) (mantissa : Nat) (exponent : Int) : List Char :=
  let d := if mantissa == 0 then ⟨0, 0⟩ else shortest mantissa exponent
  let digits := decimalText d.digits
  let top := d.exponent + digits.length - 1
  (if negative then ['-'] else []) ++
    if mantissa == 0 || (-4 ≤ top && top < 16) then positional d else scientific digits top

def floatText (x : Float) : String :=
  match Double.ofFloat x with
  | .nan => "nan"
  | .infinite negative => if negative then "-inf" else "inf"
  | .finite negative mantissa exponent => String.ofList (finiteText negative mantissa exponent)

def intText (n : Int) : String :=
  String.ofList ((if n < 0 then ['-'] else []) ++ decimalText n.natAbs)

end Workflow.Number
