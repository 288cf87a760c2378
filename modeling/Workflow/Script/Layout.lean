import Workflow.Script.Act
import Workflow.Number.Precision
import Workflow.Number.Division

/-! Format specifications: how a text or a number is laid out in a field. -/

namespace Workflow.Script

inductive Align where
  | left | right | center
  /-- The padding stands between the sign and the digits. -/
  | inside
  deriving DecidableEq, Repr

def Align.ofChar? : Char → Option Align
  | '<' => some .left
  | '>' => some .right
  | '^' => some .center
  | '=' => some .inside
  | _ => none

/-- A layout as it is written. What it does not say is left open. -/
structure Layout where
  fill : Option Char := none
  align : Option Align := none
  sign : Option Char := none
  /-- Negative zero loses its sign. -/
  plainZero : Bool := false
  alternate : Bool := false
  width : Option Nat := none
  grouping : Option Char := none
  precision : Option Nat := none
  code : Option Char := none
  deriving Repr

inductive LayoutFault where
  | tooManyDigits
  | bothGroupings
  | groupingWith (mark code : Char)
  | missingPrecision
  | invalid
  deriving DecidableEq, Repr

namespace Layout

/-- The digits at the start of a text as a number, if there are any. -/
def takeNumber (cs : List Char) : Except LayoutFault (Option Nat × List Char) :=
  let digits := cs.takeWhile Char.isDigit
  let n := digits.foldl (fun n c => n * 10 + (c.toNat - 48)) 0
  if digits.isEmpty then .ok (none, cs)
  else if n ≥ Nat.pow 2 63 then .error .tooManyDigits
  else .ok (some n, cs.drop digits.length)

/-- Fill and alignment. -/
def takeAlign (cs : List Char) : Option Char × Option Align × List Char :=
  match cs with
  | c :: d :: rest =>
    match Align.ofChar? d with
    | some a => (some c, some a, rest)
    | none =>
      match Align.ofChar? c with
      | some a => (none, some a, d :: rest)
      | none => (none, none, cs)
  | [c] =>
    match Align.ofChar? c with
    | some a => (none, some a, [])
    | none => (none, none, cs)
  | [] => (none, none, [])

def takeMark (mark : Char) (cs : List Char) : Bool × List Char :=
  match cs with
  | c :: rest => if c == mark then (true, rest) else (false, cs)
  | [] => (false, [])

def takeSign (cs : List Char) : Option Char × List Char :=
  match cs with
  | c :: rest => if c == '+' || c == '-' || c == ' ' then (some c, rest) else (none, cs)
  | [] => (none, [])

/-- The mark between groups of digits. -/
def takeGrouping (cs : List Char) : Except LayoutFault (Option Char × List Char) :=
  match cs with
  | ',' :: '_' :: _ => .error .bothGroupings
  | ',' :: rest => .ok (some ',', rest)
  | '_' :: ',' :: _ => .error .bothGroupings
  | '_' :: '_' :: _ => .error (.groupingWith '_' '_')
  | '_' :: rest => .ok (some '_', rest)
  | cs => .ok (none, cs)

def takePrecision (cs : List Char) : Except LayoutFault (Option Nat × List Char) :=
  match cs with
  | '.' :: rest => do
    match ← takeNumber rest with
    | (none, _) => .error .missingPrecision
    | found => .ok found
  | cs => .ok (none, cs)

def allowsGrouping (mark : Char) (code : Option Char) : Bool :=
  match code with
  | none => true
  | some c => ['d', 'e', 'f', 'g', 'E', 'G', '%', 'F'].contains c ||
      (mark == '_' && ['b', 'o', 'x', 'X'].contains c)

/-- Reads a specification. For texts `numeric` does not hold, and a leading zero of the width then
fills without moving the sign. -/
def ofText (numeric : Bool) (s : String) : Except LayoutFault Layout := do
  let (fill, align, cs) := takeAlign s.toList
  let (sign, cs) := takeSign cs
  let (plainZero, cs) := takeMark 'z' cs
  let (alternate, cs) := takeMark '#' cs
  let (zero, cs) := if fill.isNone then takeMark '0' cs else (false, cs)
  let fill := if zero then some '0' else fill
  let align := if zero && align.isNone && numeric then some .inside else align
  let (width, cs) ← takeNumber cs
  let (grouping, cs) ← takeGrouping cs
  let (precision, cs) ← takePrecision cs
  let code ← match cs with
    | [] => pure none
    | [c] => pure (some c)
    | _ => .error .invalid
  match grouping with
  | some mark =>
    if !allowsGrouping mark code then .error (.groupingWith mark (code.getD ' '))
  | none => pure ()
  return { fill, align, sign, plainZero, alternate, width, grouping, precision, code }

end Layout

/-- Digits in groups, with enough zeros in front that the whole reaches a width. Digits are given from
the last to the first, and so is the result. -/
def groupDigits (size : Nat) (mark : Char) : (fuel : Nat) → (width : Nat) → List Char → List Char
  | 0, _, cs => cs
  | fuel + 1, width, cs =>
    let count := min size (max (max cs.length width) 1)
    let group := cs.take count
    let filled := group ++ List.replicate (count - group.length) '0'
    let rest := cs.drop count
    if rest.isEmpty && width ≤ count then filled
    else filled ++ mark :: groupDigits size mark fuel (width - count - 1) rest

/-- A number before it is laid out. -/
structure NumberParts where
  negative : Bool
  /-- A mark of the base. -/
  mark : List Char := []
  /-- The digits that may be grouped. -/
  digits : List Char
  rest : List Char := []

namespace Layout

def signText (l : Layout) (negative : Bool) : List Char :=
  if negative then ['-']
  else match l.sign with
    | some '+' => ['+']
    | some ' ' => [' ']
    | _ => []

/-- A text in a field, with the padding that is left over at its sides. -/
def pad (l : Layout) (usual : Align) (cs : List Char) : List Char :=
  let missing := l.width.getD 0 - cs.length
  let fill := l.fill.getD ' '
  match l.align.getD usual with
  | .left => cs ++ List.replicate missing fill
  | .center => List.replicate (missing / 2) fill ++ cs ++ List.replicate (missing - missing / 2) fill
  | _ => List.replicate missing fill ++ cs

def number (l : Layout) (groupSize : Nat) (p : NumberParts) : List Char :=
  let sign := l.signText p.negative
  let around := sign.length + p.mark.length + p.rest.length
  let inside := l.align == some .inside
  let least := if inside && l.fill == some '0' then l.width.getD 0 - around else 0
  let digits := match l.grouping with
    | some mark =>
      if p.digits.isEmpty then []
      else (groupDigits groupSize mark (p.digits.length + least + 1) least p.digits.reverse).reverse
    | none => p.digits
  if inside then
    let missing := l.width.getD 0 - (around + digits.length)
    sign ++ p.mark ++ List.replicate missing (l.fill.getD ' ') ++ digits ++ p.rest
  else l.pad .right (sign ++ p.mark ++ digits ++ p.rest)

end Layout

def upperAll (cs : List Char) : List Char := cs.map Char.toUpper

namespace LayoutFault

def message (spec typeName : String) : LayoutFault → String
  | .tooManyDigits => "Too many decimal digits in format string"
  | .bothGroupings => "Cannot specify both ',' and '_'."
  | .groupingWith mark code => s!"Cannot specify '{mark}' with '{code}'."
  | .missingPrecision => "Format specifier missing precision"
  | .invalid => s!"Invalid format specifier '{spec}' for object of type '{typeName}'"

end LayoutFault

def codeText (c : Char) : String :=
  if 32 < c.toNat && c.toNat < 128 then String.singleton c
  else "\\x" ++ String.ofList (Nat.toDigits 16 c.toNat)

def unknownCode (c : Char) (typeName : String) : Act α :=
  Act.valueError s!"Unknown format code '{codeText c}' for object of type '{typeName}'"

def parseLayout (numeric : Bool) (spec typeName : String) : Act Layout :=
  match Layout.ofText numeric spec with
  | .ok l => return l
  | .error fault => Act.valueError (fault.message spec typeName)

def layoutText (spec s : String) : Act String := do
  let l ← parseLayout false spec "str"
  match l.code with
  | some c => if c != 's' then unknownCode c "str"
  | none => pure ()
  match l.sign with
  | some ' ' => Act.valueError "Space not allowed in string format specifier"
  | some _ => Act.valueError "Sign not allowed in string format specifier"
  | none => pure ()
  if l.plainZero then
    Act.valueError "Negative zero coercion (z) not allowed in string format specifier"
  if l.alternate then Act.valueError "Alternate form (#) not allowed in string format specifier"
  match l.grouping with
  | some mark => Act.valueError s!"Cannot specify '{mark}' with 's'."
  | none => pure ()
  if l.align == some .inside then
    Act.valueError "'=' alignment not allowed in string format specifier"
  let cs := s.toList
  return String.ofList (l.pad .left (match l.precision with
    | some n => cs.take n
    | none => cs))

/-- The digits of a double under a code, without sign, as what may be grouped and what follows. -/
def realParts (l : Layout) (x : Float) : List Char × List Char :=
  let code := l.code
  let upper := code == some 'F' || code == some 'E' || code == some 'G'
  let percent := if code == some '%' then ['%'] else []
  let raise := fun cs => if upper then upperAll cs else cs
  let split := fun (cs : List Char) =>
    (cs.takeWhile Char.isDigit, raise (cs.dropWhile Char.isDigit) ++ percent)
  let places := l.precision.getD 6
  let text := fun (value : Number.Ratio) => match code with
    | some 'f' => Number.fixedText value places l.alternate
    | some 'F' => Number.fixedText value places l.alternate
    | some '%' => Number.fixedText value places l.alternate
    | some 'e' => Number.exponentForm value places l.alternate
    | some 'E' => Number.exponentForm value places l.alternate
    | none =>
      match l.precision with
      | none => []
      | some n =>
        let cs := Number.generalText value n (max n 1 - 1) ⟨l.alternate, l.alternate⟩
        if cs.contains '.' || cs.contains 'e' then cs else cs ++ ['.', '0']
    | some _ => Number.generalText value places (max places 1) ⟨l.alternate, l.alternate⟩
  match Number.Double.ofFloat x with
  | .nan => ([], raise ['n', 'a', 'n'] ++ percent)
  | .infinite _ => ([], raise ['i', 'n', 'f'] ++ percent)
  | .finite _ m e =>
    if code.isNone && l.precision.isNone then split (Number.finiteText false m e)
    else split (text ((Number.Ratio.mk m 1).scale 2 e))

def layoutReal (typeName : String) (l : Layout) (x : Float) : Act String := do
  match l.code with
  | some c =>
    if !(['e', 'E', 'f', 'F', 'g', 'G', 'n', '%'].contains c) then unknownCode c typeName
  | none => pure ()
  if l.precision.any (· ≥ Nat.pow 2 31) then Act.valueError "precision too big"
  let x := if l.code == some '%' then x * 100.0 else x
  let (digits, rest) := realParts l x
  let zero := (digits ++ rest).all (fun c => !c.isDigit || c == '0')
  let negative := Number.isNegative x && !x.isNaN && !(l.plainZero && zero && !x.isInf)
  return String.ofList (l.number 3 { negative, digits, rest })

def baseOfCode (code : Option Char) : Nat :=
  match code with
  | some 'b' => 2
  | some 'o' => 8
  | some 'x' => 16
  | some 'X' => 16
  | _ => 10

def layoutWhole (typeName : String) (l : Layout) (n : Int) : Act String := do
  if l.precision.isSome then
    Act.valueError "Precision not allowed in integer format specifier"
  if l.plainZero then
    Act.valueError "Negative zero coercion (z) not allowed in integer format specifier"
  if l.code == some 'c' then
    if l.sign.isSome then Act.valueError "Sign not allowed with integer format specifier 'c'"
    if l.alternate then
      Act.valueError "Alternate form (#) not allowed with integer format specifier 'c'"
    if n < 0 || n ≥ 0x110000 then Act.fail .overflow "%c arg not in range(0x110000)"
    return String.ofList ({ l with align := some (l.align.getD .left) }.number 3
      { negative := false, digits := [], rest := [Char.ofNat n.toNat] })
  else
    match l.code with
    | some c => if !(['d', 'n', 'b', 'o', 'x', 'X'].contains c) then unknownCode c typeName
    | none => pure ()
    let base := baseOfCode l.code
    let digits := Nat.toDigits base n.natAbs
    let upper := l.code == some 'X'
    let mark := match l.code with
      | some c => if l.alternate && base != 10 then ['0', c] else []
      | none => []
    return String.ofList (l.number (if base == 10 then 3 else 4)
      { negative := n < 0, mark, digits := if upper then upperAll digits else digits })

/-- A value in a field. Only texts and numbers take a specification that is not empty. -/
def layoutValue (v : Value) (spec : String) : Act String := do
  if spec.isEmpty then Act.plain v
  else
    let typeName ← Act.typeName v
    match v with
    | .str s => layoutText spec s
    | .float x => layoutReal typeName (← parseLayout true spec typeName) x
    | v =>
      match v.int? with
      | some n =>
        let l ← parseLayout true spec typeName
        if ['e', 'E', 'f', 'F', 'g', 'G', '%'].any (l.code == some ·) then
          let x ← match Number.floatOfInt? n with
            | some x => pure x
            | none => Act.fail .overflow "int too large to convert to float"
          layoutReal typeName l x
        else layoutWhole typeName l n
      | none => Act.typeError s!"unsupported format string passed to {typeName}.__format__"

end Workflow.Script
