import Workflow.Number.Double
import Workflow.Text.Blank
import Workflow.Text.Digit

/-! Numbers read from text: whole numbers in a base, and doubles rounded to the nearest. -/

namespace Workflow.Number

def ofDigits (base : Nat) (digits : List Nat) : Nat :=
  digits.foldl (fun n d => n * base + d) 0

/-- The value of a digit up to `z`, in either case. -/
def digitValue? (c : Char) : Option Nat :=
  if c.isDigit then some (c.toNat - 48)
  else if 'a' ≤ c && c ≤ 'z' then some (c.toNat - 87)
  else if 'A' ≤ c && c ≤ 'Z' then some (c.toNat - 55)
  else none

/-- The digits of a base with single underscores between them, or none for anything else. -/
def groupedDigits? (base : Nat) : List Char → Option (List Nat)
  | [] => none
  | c :: rest => do
    let d ← digitValue? c
    if d < base then
      match rest with
      | [] => some [d]
      | '_' :: more => (groupedDigits? base more).map (d :: ·)
      | more => (groupedDigits? base more).map (d :: ·)
    else none

/-- The double nearest to `digits * 10 ^ exponent`. Far outside the range of doubles the power is
not formed. -/
def floatOfDecimal (negative : Bool) (digits : Nat) (exponent : Int) : Float :=
  let length := Nat.log2 digits / 3 + 2
  if digits == 0 || exponent + length < -400 then floatOfParts negative 0 0
  else if exponent > 400 then infinity negative
  else nearestDouble negative ((Ratio.mk digits 1).scale 10 exponent)

/-- The parts of a decimal number: digits before and after the point, and the exponent. -/
structure Written where
  whole : List Nat
  fraction : List Nat
  exponent : Int

def Written.toFloat (w : Written) (negative : Bool) : Float :=
  floatOfDecimal negative (ofDigits 10 (w.whole ++ w.fraction)) (w.exponent - w.fraction.length)

def takeDigitsFrom : (afterDigit : Bool) → List Char → List Nat × List Char
  | _, [] => ([], [])
  | afterDigit, c :: rest =>
    if c.isDigit then
      let (digits, left) := takeDigitsFrom true rest
      ((c.toNat - 48) :: digits, left)
    else if afterDigit && c == '_' && rest.head?.any Char.isDigit then takeDigitsFrom false rest
    else ([], c :: rest)

/-- The longest start made of digits with single underscores between them, and the rest. -/
def takeDigits (cs : List Char) : List Nat × List Char := takeDigitsFrom false cs

/-- An exponent with its mark, if a complete one follows. -/
def takeExponent (cs : List Char) : Int × List Char :=
  match cs with
  | mark :: rest =>
    if mark == 'e' || mark == 'E' then
      let (negative, unsigned) := match rest with
        | '-' :: more => (true, more)
        | '+' :: more => (false, more)
        | more => (false, more)
      match takeDigits unsigned with
      | ([], _) => (0, cs)
      | (digits, left) =>
        let n : Int := ofDigits 10 digits
        (if negative then -n else n, left)
    else (0, cs)
  | [] => (0, [])

/-- A decimal number at the start of a text: digits, a point and an exponent, each optional, with at
least one digit. -/
def takeWritten? (cs : List Char) : Option (Written × List Char) :=
  let (whole, rest) := takeDigits cs
  let (fraction, rest) := match rest with
    | '.' :: more => takeDigits more
    | more => ([], more)
  if whole.isEmpty && fraction.isEmpty then none
  else
    let (exponent, rest) := takeExponent rest
    some (⟨whole, fraction, exponent⟩, rest)

def signed (cs : List Char) : Bool × List Char :=
  match cs with
  | '-' :: rest => (true, rest)
  | '+' :: rest => (false, rest)
  | rest => (false, rest)

/-- Decimal digits of other scripts become plain ones. -/
def plainDigits (cs : List Char) : List Char :=
  cs.map (fun c => match Text.decimal? c with
    | some d => Char.ofNat (48 + d)
    | none => c)

/-- A double as a text gives it: blanks around it are ignored, and infinity and not-a-number have
names in any case. -/
def floatOfText? (s : String) : Option Float :=
  let (negative, cs) := signed (plainDigits (Text.trim Text.isBlank s.toList))
  let lowered := String.ofList (cs.map Char.toLower)
  if lowered == "inf" || lowered == "infinity" then some (infinity negative)
  else if lowered == "nan" then some (0.0 / 0.0)
  else match takeWritten? cs with
    | some (w, []) => some (w.toFloat negative)
    | _ => none

/-- The digits after a base mark such as `0x`; one underscore may follow the mark. -/
def markedDigits? (base : Nat) (marks : List Char) (cs : List Char) : Option (List Nat) :=
  match cs with
  | '0' :: mark :: rest =>
    if marks.contains mark then
      match rest with
      | '_' :: more => groupedDigits? base more
      | more => groupedDigits? base more
    else none
  | _ => none

def marksOf (base : Nat) : List Char :=
  if base == 16 then ['x', 'X'] else if base == 8 then ['o', 'O']
  else if base == 2 then ['b', 'B'] else []

/-- A whole number in a base from 2 to 36, which may carry the mark of the base; in base 0 the mark
decides, and without one there are no leading zeros. -/
def natOfText? (base : Nat) (cs : List Char) : Option Nat :=
  if base == 0 then
    let marked := [16, 8, 2].findSome? (fun b => (markedDigits? b (marksOf b) cs).map (ofDigits b))
    match marked with
    | some n => some n
    | none => do
      let digits ← groupedDigits? 10 cs
      if digits.head? == some 0 && digits.any (· != 0) then none else some (ofDigits 10 digits)
  else
    (((markedDigits? base (marksOf base) cs).or (groupedDigits? base cs))).map (ofDigits base)

def intOfText? (base : Nat) (s : String) : Option Int :=
  let (negative, cs) := signed (plainDigits (Text.trim Text.isBlank s.toList))
  (natOfText? base cs).map (fun n => if negative then -(n : Int) else n)

/-- How many digits of a number count against a limit: none in a base that is a power of two. -/
def countedDigits (base : Nat) (s : String) : Nat :=
  let (_, cs) := signed (Text.trim Text.isBlank s.toList)
  let isMarked := match cs with
    | '0' :: mark :: _ => !mark.isDigit && mark != '_'
    | _ => false
  if [2, 4, 8, 16, 32].contains base || (base == 0 && isMarked) then 0
  else (cs.filter (· != '_')).length

end Workflow.Number
