import Workflow.Number.Notation

/-! Doubles written with a chosen precision, without their sign. -/

namespace Workflow.Number

/-- What surrounds the digits. `point` keeps a point that no digit follows; `zeros` keeps zeros at the
end of the fraction. -/
structure Keeping where
  point : Bool := false
  zeros : Bool := false

/-- A text of digits with a point added at its end where it must be kept. -/
def endPoint (keep : Bool) (cs : List Char) : List Char :=
  if keep && !cs.contains '.' then cs ++ ['.'] else cs

/-- A fixed number of places after the point. -/
def fixedText (value : Ratio) (places : Nat) (keepPoint : Bool) : List Char :=
  endPoint keepPoint (withPoint (placed value places) places)

def mantissaText (digits : List Char) (keepPoint : Bool) : List Char :=
  match digits with
  | [] => []
  | first :: rest => first :: (if rest.isEmpty && !keepPoint then [] else '.' :: rest)

/-- One digit before the point, a fixed number after it, and an exponent. -/
def exponentForm (value : Ratio) (places : Nat) (keepPoint : Bool) : List Char :=
  let (digits, top) := significant value (places + 1)
  let cs := padLeft (places + 1) '0' (decimalText digits)
  mantissaText (if digits == 0 then List.replicate (places + 1) '0' else cs) keepPoint ++
    exponentText 'e' top

/-- Digits without the zeros at their end, but at least one. -/
def withoutEndZeros (cs : List Char) : List Char :=
  match (cs.reverse.dropWhile (· == '0')).reverse with
  | [] => ['0']
  | kept => kept

/-- Significant digits, positional while the exponent of the first digit is from -4 up to `limit`. -/
def generalText (value : Ratio) (count : Nat) (limit : Int) (keep : Keeping) : List Char :=
  let count := max count 1
  let (number, top) := significant value count
  let digits := if number == 0 then List.replicate count '0' else decimalText number
  let kept := if keep.zeros then digits else withoutEndZeros digits
  if -4 ≤ top && top < limit then
    if top < 0 then '0' :: '.' :: List.replicate (-top - 1).toNat '0' ++ kept
    else
      let whole := top.toNat + 1
      let shown := kept ++ List.replicate (whole - kept.length) '0'
      let fraction := shown.drop whole
      shown.take whole ++ (if fraction.isEmpty && !keep.point then [] else '.' :: fraction)
  else mantissaText kept keep.point ++ exponentText 'e' top

end Workflow.Number
