import Workflow.Calendar
import Workflow.Number.Reading

/-! Tags: what kind of value a node stands for. A plain scalar has a tag by its form. -/

namespace Workflow.Yaml

inductive Tag where
  | null | bool | int | float | timestamp | str | binary | seq | map | omap | pairs | set
  /-- The tag of a key under which other mappings are merged. -/
  | merge
  /-- The tag of a key whose value stands for the mapping. -/
  | value
  | other
  deriving DecidableEq, Repr

namespace Tag

def names : List (Tag × String) :=
  [(.null, "null"), (.bool, "bool"), (.int, "int"), (.float, "float"), (.timestamp, "timestamp"),
   (.str, "str"), (.binary, "binary"), (.seq, "seq"), (.map, "map"), (.omap, "omap"),
   (.pairs, "pairs"), (.set, "set"), (.merge, "merge"), (.value, "value")]

/-- What the tags of the language start with. -/
def standard : String := "tag:yaml.org,2002:"

def ofText (s : String) : Tag :=
  ((names.find? (fun (_, name) => standard ++ name == s)).map (·.1)).getD .other

end Tag

/-! Forms of plain scalars. A line break at the end of a scalar does not count. -/

def withoutBreak (cs : List Char) : List Char :=
  if cs.getLast? == some '\n' then cs.dropLast else cs

def isOctalDigit (c : Char) : Bool := '0' ≤ c && c ≤ '7'

def isHexDigit (c : Char) : Bool := (Number.digitValue? c).any (· < 16)

/-- Whether a text is made of characters of a class and of underscores. -/
def allGrouped (p : Char → Bool) (cs : List Char) : Bool :=
  !cs.isEmpty && cs.all (fun c => p c || c == '_')

def unsigned (cs : List Char) : List Char := (Number.signed cs).2

/-- Past digits and underscores. -/
def afterDigits (cs : List Char) : List Char := cs.dropWhile (fun c => c.isDigit || c == '_')

/-- Past parts below sixty, each behind a colon. -/
def afterSixties : List Char → List Char
  | ':' :: a :: b :: rest =>
    if '0' ≤ a && a ≤ '5' && b.isDigit then afterSixties rest
    else if a.isDigit then afterSixties (b :: rest)
    else ':' :: a :: b :: rest
  | [':', a] => if a.isDigit then [] else [':', a]
  | cs => cs
termination_by cs => cs.length

def isBool (cs : List Char) : Bool :=
  ["yes", "no", "true", "false", "on", "off"].any (fun word =>
    let letters := word.toList
    let title := letters.take 1 |>.map Char.toUpper
    cs == letters || cs == title ++ letters.drop 1 || cs == letters.map Char.toUpper)

def isNull (cs : List Char) : Bool :=
  ["", "~", "null", "Null", "NULL"].contains (String.ofList cs)

def isInt (cs : List Char) : Bool :=
  match unsigned cs with
  | ['0'] => true
  | '0' :: 'b' :: rest => allGrouped (fun c => c == '0' || c == '1') rest
  | '0' :: 'x' :: rest => allGrouped isHexDigit rest
  | '0' :: rest => allGrouped isOctalDigit rest
  | c :: rest => c.isDigit && (afterSixties (afterDigits rest)).isEmpty
  | [] => false

/-- Whether a text is empty or an exponent with a sign. -/
def isExponent : List Char → Bool
  | [] => true
  | e :: sign :: digits =>
    (e == 'e' || e == 'E') && (sign == '-' || sign == '+') && !digits.isEmpty &&
      digits.all Char.isDigit
  | _ => false

/-- Infinity or not-a-number, or a number with a point. The point stands behind a digit or, without
a sign, in front of one. -/
def isFloat (cs : List Char) : Bool :=
  let body := unsigned cs
  if [".inf", ".Inf", ".INF"].contains (String.ofList body) then true
  else if [".nan", ".NaN", ".NAN"].contains (String.ofList cs) then true
  else
    match body with
    | '.' :: d :: rest => body == cs && d.isDigit && isExponent (afterDigits rest)
    | d :: rest =>
      let whole := afterDigits rest
      d.isDigit && match afterSixties whole with
        | '.' :: fraction =>
          let left := afterDigits fraction
          left.isEmpty || (whole.head? == some '.' && isExponent left)
        | _ => false
    | [] => false

/-! Dates and moments. -/

/-- A number of one digit or two, and what follows it. -/
def shortNumber? : List Char → Option (Nat × List Char)
  | a :: rest =>
    if !a.isDigit then none
    else
      match rest with
      | b :: more =>
        if b.isDigit then some (Number.ofDigits 10 [a.toNat - 48, b.toNat - 48], more)
        else some (a.toNat - 48, rest)
      | [] => some (a.toNat - 48, [])
  | [] => none

/-- A number of just so many digits, and what follows it. -/
def fixedNumber? (width : Nat) (cs : List Char) : Option (Nat × List Char) :=
  let digits := cs.take width
  if digits.length == width && digits.all Char.isDigit then
    some (Number.ofDigits 10 (digits.map (fun d => d.toNat - 48)), cs.drop width)
  else none

def mark? (p : Char → Bool) : List Char → Option (List Char)
  | c :: rest => if p c then some rest else none
  | [] => none

def dropGaps (cs : List Char) : List Char := cs.dropWhile (fun c => c == ' ' || c == '\t')

/-- An offset from universal time in minutes, if there is one, up to the end of a text. -/
def offset? (cs : List Char) : Option (Option Int) :=
  match cs, dropGaps cs with
  | [], _ => some none
  | _, ['Z'] => some (some 0)
  | _, sign :: rest => do
    if sign != '-' && sign != '+' then none
    let (hours, rest) ← shortNumber? rest
    let minutes ← if rest.isEmpty then some 0 else do
      let (minutes, rest) ← fixedNumber? 2 (← mark? (· == ':') rest)
      if rest.isEmpty then some minutes else none
    let total : Int := 60 * hours + minutes
    some (some (if sign == '-' then -total else total))
  | _, [] => none

/-- Millionths of a second, from the digits behind a point. -/
def microsOf (digits : List Char) : Nat :=
  Number.ofDigits 10 ((digits ++ List.replicate 6 '0').take 6 |>.map (fun d => d.toNat - 48))

/-- A date, which may be followed by a time of day. Nothing is in range yet. -/
def stamp? (cs : List Char) : Option (Date ⊕ Moment) := do
  let (year, rest) ← fixedNumber? 4 cs
  let (month, rest) ← shortNumber? (← mark? (· == '-') rest)
  let (day, rest) ← shortNumber? (← mark? (· == '-') rest)
  let date : Date := ⟨year, month, day⟩
  if rest.isEmpty then return .inl date
  let rest ← match rest with
    | c :: more =>
      if c == 'T' || c == 't' then some more
      else if c == ' ' || c == '\t' then some (dropGaps rest)
      else none
    | [] => none
  let (hour, rest) ← shortNumber? rest
  let (minute, rest) ← fixedNumber? 2 (← mark? (· == ':') rest)
  let (second, rest) ← fixedNumber? 2 (← mark? (· == ':') rest)
  let fraction := match rest with
    | '.' :: more => more.takeWhile Char.isDigit
    | _ => []
  let rest := if rest.head? == some '.' then rest.drop (fraction.length + 1) else rest
  let offset ← offset? rest
  return .inr { date, hour, minute, second, micros := microsOf fraction, offset }

/-- A date alone has all its digits. -/
def isTimestamp (cs : List Char) : Bool :=
  match stamp? cs with
  | some (.inl _) => cs.length == 10
  | some (.inr _) => true
  | none => false

def Tag.ofPlain (text : String) : Tag :=
  let cs := withoutBreak text.toList
  if isBool cs then .bool
  else if isFloat cs then .float
  else if isInt cs then .int
  else if cs == ['<', '<'] then .merge
  else if isNull cs then .null
  else if isTimestamp cs then .timestamp
  else if cs == ['='] then .value
  else if [['!'], ['&'], ['*']].contains cs then .other
  else .str

end Workflow.Yaml
