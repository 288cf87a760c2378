import Workflow.Script.Template

/-! Texts with percent marks that stand for values. -/

namespace Workflow.Script

namespace Percent

/-- A mark as it is written. -/
structure Mark where
  left : Bool := false
  plus : Bool := false
  blank : Bool := false
  alternate : Bool := false
  zero : Bool := false
  width : Nat := 0
  precision : Option Nat := none
  deriving Repr

/-- The values that are still to be used: one value alone, a row, or none any more. -/
inductive Supply where
  | single (v : Value)
  | row (values : List Value)
  | spent

/-- The state of a text that is being filled in. -/
structure Progress where
  supply : Supply
  /-- The values by name, if names may be used. -/
  mapping : Option Value

def take (supply : Supply) : Act (Value × Supply) := do
  match supply with
  | .single v => return (v, .spent)
  | .row (v :: rest) => return (v, .row rest)
  | _ => Act.typeError "not enough arguments for format string"

/-- A key in round brackets, which may nest. -/
def takeKey : (depth : Nat) → List Char → Option (List Char × List Char)
  | _, [] => none
  | depth, c :: rest =>
    if c == ')' && depth == 0 then some ([], rest)
    else
      let depth := if c == '(' then depth + 1 else if c == ')' then depth - 1 else depth
      (takeKey depth rest).map (fun (key, left) => (c :: key, left))

def takeFlags : Mark → List Char → Mark × List Char
  | m, '-' :: rest => takeFlags { m with left := true } rest
  | m, '+' :: rest => takeFlags { m with plus := true } rest
  | m, ' ' :: rest => takeFlags { m with blank := true } rest
  | m, '#' :: rest => takeFlags { m with alternate := true } rest
  | m, '0' :: rest => takeFlags { m with zero := true } rest
  | m, cs => (m, cs)

def takeDigits (what : String) (cs : List Char) : Act (Nat × List Char) := do
  let digits := cs.takeWhile Char.isDigit
  let n : Nat := digits.foldl (fun n c => n * 10 + (c.toNat - 48)) 0
  if n ≥ Nat.pow 2 63 then Act.valueError s!"{what} too big"
  return (n, cs.drop digits.length)

/-- A width, which may be one of the values. -/
def takeWidth (m : Mark) (supply : Supply) (cs : List Char) : Act (Mark × Supply × List Char) := do
  match cs with
  | '*' :: rest =>
    let (v, supply) ← take supply
    match v.int? with
    | some n => return ({ m with width := n.natAbs, left := m.left || n < 0 }, supply, rest)
    | none => Act.typeError "* wants int"
  | cs =>
    let (n, rest) ← takeDigits "width" cs
    return ({ m with width := n }, supply, rest)

def takePrecision (m : Mark) (supply : Supply) (cs : List Char) :
    Act (Mark × Supply × List Char) := do
  match cs with
  | '.' :: '*' :: rest =>
    let (v, supply) ← take supply
    match v.int? with
    | some n => return ({ m with precision := some n.toNat }, supply, rest)
    | none => Act.typeError "* wants int"
  | '.' :: rest =>
    let (n, rest) ← takeDigits "precision" rest
    return ({ m with precision := some n }, supply, rest)
  | cs => return (m, supply, cs)

def dropLength : List Char → List Char
  | c :: rest => if c == 'h' || c == 'l' || c == 'L' then rest else c :: rest
  | [] => []

/-- A number in its field: sign, mark of the base and digits. -/
def layNumber (m : Mark) (negative : Bool) (base digits : List Char) : List Char :=
  let sign := if negative then ['-'] else if m.plus then ['+'] else if m.blank then [' '] else []
  let missing := m.width - (sign.length + base.length + digits.length)
  if m.left then sign ++ base ++ digits ++ List.replicate missing ' '
  else if m.zero then sign ++ base ++ List.replicate missing '0' ++ digits
  else List.replicate missing ' ' ++ sign ++ base ++ digits

def layText (m : Mark) (cs : List Char) : List Char :=
  let cs := match m.precision with
    | some n => cs.take n
    | none => cs
  let missing := m.width - cs.length
  if m.left then cs ++ List.replicate missing ' ' else List.replicate missing ' ' ++ cs

/-- The whole number that a code asks for. Only decimal codes cut a double. -/
def wholeOf (code : Char) (v : Value) : Act Int := do
  let decimal := code == 'd' || code == 'i' || code == 'u'
  match v, v.int? with
  | _, some n => return n
  | .float x, none =>
    if decimal then
      match (Number.Double.ofFloat x).truncate? with
      | some n => return n
      | none =>
        if x.isNaN then Act.valueError "cannot convert float NaN to integer"
        else Act.fail .overflow "cannot convert float infinity to integer"
    else Act.typeError s!"%{code} format: an integer is required, not float"
  | v, none =>
    let needed := if decimal then "a real number" else "an integer"
    Act.typeError s!"%{code} format: {needed} is required, not {← Act.typeName v}"

def realOf (v : Value) : Act Float := do
  match v, v.int? with
  | .float x, _ => return x
  | _, some n =>
    match Number.floatOfInt? n with
    | some x => return x
    | none => Act.fail .overflow "int too large to convert to float"
  | v, none => Act.typeError s!"must be real number, not {← Act.typeName v}"

/-- One value under a code. `place` is where the code stands in the text. -/
def show_ (m : Mark) (code : Char) (place : Nat) (v : Value) : Act (List Char) := do
  if code == 's' then return layText m (← Act.plain v).toList
  else if code == 'r' then return layText m (← Act.quoted v).toList
  else if code == 'a' then return layText m (Template.asciiText (← Act.quoted v)).toList
  else if ['d', 'i', 'u', 'o', 'x', 'X'].contains code then
    let n ← wholeOf code v
    let base := if code == 'o' then 8 else if code == 'x' || code == 'X' then 16 else 10
    let digits := Number.padLeft (m.precision.getD 1) '0' (Nat.toDigits base n.natAbs)
    let mark := if m.alternate && base != 10 then ['0', code] else []
    return layNumber m (n < 0) mark (if code == 'X' then upperAll digits else digits)
  else if ['e', 'E', 'f', 'F', 'g', 'G'].contains code then
    let x ← realOf v
    let (digits, rest) :=
      realParts { alternate := m.alternate, precision := some (m.precision.getD 6),
                  code := some code } x
    return layNumber m (Number.isNegative x && !x.isNaN) [] (digits ++ rest)
  else if code == 'c' then
    match v, v.int? with
    | .str s, _ =>
      if s.length == 1 then return layText { m with precision := none } s.toList
      else Act.typeError "%c requires int or char"
    | _, some n =>
      if n < 0 || n ≥ 0x110000 then Act.fail .overflow "%c arg not in range(0x110000)"
      return layText { m with precision := none } [Char.ofNat n.toNat]
    | _, none => Act.typeError "%c requires int or char"
  else
    let shown := if 31 ≤ code.toNat && code.toNat ≤ 126 then code else '?'
    let hex := String.ofList (Nat.toDigits 16 code.toNat)
    Act.valueError s!"unsupported format character '{shown}' (0x{hex}) at index {place}"

/-- One mark after its percent sign: what it stands for, what is left to use, and what follows. -/
def fillMark (length : Nat) (p : Progress) (cs : List Char) :
    Act (List Char × Progress × List Char) := do
  if let '%' :: rest := cs then return (['%'], p, rest)
  let (supply, cs) ← match cs with
    | '(' :: rest =>
      match p.mapping with
      | none => Act.typeError "format requires a mapping"
      | some mapping =>
        match takeKey 0 rest with
        | none => Act.valueError "incomplete format key"
        | some (key, rest) =>
          pure (.single (← Act.subscript mapping (.str (String.ofList key))), rest)
    | cs => pure (p.supply, cs)
  let (m, cs) := takeFlags {} cs
  let (m, supply, cs) ← takeWidth m supply cs
  let (m, supply, cs) ← takePrecision m supply cs
  match dropLength cs with
  | [] => Act.valueError "incomplete format"
  | code :: rest =>
    let (v, supply) ← take supply
    return (← show_ m code (length - rest.length - 1) v, { p with supply }, rest)

def fill (length : Nat) : (fuel : Nat) → Progress → List Char → Act (List Char × Progress)
  | 0, p, _ => return ([], p)
  | _, p, [] => return ([], p)
  | fuel + 1, p, '%' :: rest => do
    let (shown, p, rest) ← fillMark length p rest
    let (more, p) ← fill length fuel p rest
    return (shown ++ more, p)
  | fuel + 1, p, c :: rest => do
    let (more, p) ← fill length fuel p rest
    return (c :: more, p)

/-- Values that can be asked for parts by name. -/
def isMapping (h : Heap) : Value → Bool
  | .range _ _ _ => true
  | .ref a =>
    match h.object a with
    | .list _ => true
    | .dict _ => true
    | _ => false
  | _ => false

end Percent

/-- A text with its percent marks replaced by the values of a row, of a mapping or by one value. -/
def formatPercent (text : String) (v : Value) : Act String := do
  let mapping := if Percent.isMapping (← get) v then some v else none
  let supply := match v with
    | .tuple values => Percent.Supply.row values
    | v => .single v
  let cs := text.toList
  let (shown, p) ← Percent.fill cs.length (cs.length + 1) ⟨supply, mapping⟩ cs
  let left := match p.supply with
    | .single _ => true
    | .row rest => !rest.isEmpty
    | .spent => false
  if left && mapping.isNone then
    Act.typeError "not all arguments converted during string formatting"
  return String.ofList shown

end Workflow.Script
