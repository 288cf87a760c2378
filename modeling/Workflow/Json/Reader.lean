import Workflow.Json.Basic
import Workflow.Number.Limit
import Workflow.Number.Reading

/-! Reading JSON texts. Besides the standard forms, `NaN`, `Infinity` and `-Infinity` are numbers. -/

namespace Workflow.Json

inductive ReadFault where
  | malformed
  /-- A whole number with too many digits. -/
  | longNumber (digits : Nat)
  deriving DecidableEq, Repr

abbrev Reader (α : Type) := List Char → Except ReadFault (α × List Char)

def isSpace (c : Char) : Bool := c == ' ' || c == '\t' || c == '\n' || c == '\r'

def skip (cs : List Char) : List Char := cs.dropWhile isSpace

def hexValue? (cs : List Char) : Option Nat :=
  cs.foldlM (fun n c => do
    let d ← Number.digitValue? c
    if d < 16 then some (n * 16 + d) else none) 0

/-- Four hexadecimal digits. -/
def unit? (cs : List Char) : Option (Nat × List Char) :=
  let digits := cs.take 4
  if digits.length == 4 then (hexValue? digits).map (·, cs.drop 4) else none

def charOf (n : Nat) : Char := if n.isValidChar then Char.ofNat n else '\ufffd'

/-- The character of an escape with a code; two halves of a pair make one. -/
def codeEscape (cs : List Char) : Except ReadFault (Char × List Char) :=
  match unit? cs with
  | none => .error .malformed
  | some (high, rest) =>
    match rest with
    | '\\' :: 'u' :: more =>
      match unit? more with
      | some (low, left) =>
        if 0xD800 ≤ high && high < 0xDC00 && 0xDC00 ≤ low && low < 0xE000 then
          .ok (charOf (0x10000 + (high - 0xD800) * 0x400 + (low - 0xDC00)), left)
        else .ok (charOf high, rest)
      | none => .ok (charOf high, rest)
    | _ => .ok (charOf high, rest)

def plainEscape? (c : Char) : Option Char :=
  match c with
  | '"' => some '"'
  | '\\' => some '\\'
  | '/' => some '/'
  | 'b' => some '\x08'
  | 'f' => some '\x0c'
  | 'n' => some '\n'
  | 'r' => some '\r'
  | 't' => some '\t'
  | _ => none

/-- The characters of a string after its opening quote. -/
def string : (fuel : Nat) → Reader (List Char)
  | 0, _ => .error .malformed
  | _, [] => .error .malformed
  | fuel + 1, c :: rest =>
    if c == '"' then .ok ([], rest)
    else if c.toNat < 32 then .error .malformed
    else if c == '\\' then
      match rest with
      | 'u' :: code => do
        let (d, rest) ← codeEscape code
        let (more, left) ← string fuel rest
        return (d :: more, left)
      | e :: rest =>
        match plainEscape? e with
        | some d => do
          let (more, left) ← string fuel rest
          return (d :: more, left)
        | none => .error .malformed
      | [] => .error .malformed
    else do
      let (more, left) ← string fuel rest
      return (c :: more, left)

/-- A fraction with its digits, if one follows. -/
def fraction (cs : List Char) : List Char × List Char :=
  match cs with
  | '.' :: rest =>
    let digits := rest.takeWhile Char.isDigit
    if digits.isEmpty then ([], cs) else (digits, rest.drop digits.length)
  | _ => ([], cs)

/-- An exponent, if a complete one follows. -/
def exponent (cs : List Char) : Option Int × List Char :=
  match cs with
  | mark :: rest =>
    if mark == 'e' || mark == 'E' then
      let (negative, unsigned) := Number.signed rest
      let digits := unsigned.takeWhile Char.isDigit
      if digits.isEmpty then (none, cs)
      else
        let n : Int := Number.ofDigits 10 (digits.map (fun c => c.toNat - 48))
        (some (if negative then -n else n), unsigned.drop digits.length)
    else (none, cs)
  | [] => (none, cs)

/-- A number without its minus sign, and whether it has one. -/
def unsigned (cs : List Char) : Bool × List Char :=
  match cs with
  | '-' :: rest => (true, rest)
  | rest => (false, rest)

/-- The digits that a number starts with. A zero stands alone. -/
def whole (cs : List Char) : List Char :=
  match cs with
  | '0' :: _ => ['0']
  | rest => rest.takeWhile Char.isDigit

def number : Reader Json := fun cs =>
  let (negative, unsigned) := unsigned cs
  let whole := whole unsigned
  if whole.isEmpty then .error .malformed
  else
    let (places, rest) := fraction (unsigned.drop whole.length)
    let (power, rest) := exponent rest
    let digits := (whole ++ places).map (fun c => c.toNat - 48)
    if places.isEmpty && power.isNone then
      if whole.length > Number.digitLimit then .error (.longNumber whole.length)
      else
        let n : Int := Number.ofDigits 10 digits
        .ok (.int (if negative then -n else n), rest)
    else
      .ok (.float (Number.floatOfDecimal negative (Number.ofDigits 10 digits)
        (power.getD 0 - places.length)), rest)

def words : List (String × Json) :=
  [("null", .null), ("true", .bool true), ("false", .bool false), ("NaN", .float (0.0 / 0.0)),
   ("Infinity", .float (Number.infinity false)), ("-Infinity", .float (Number.infinity true))]

/-- A word or a number. -/
def scalar : Reader Json := fun cs =>
  match words.find? (fun (w, _) => w.toList.isPrefixOf cs) with
  | some (w, j) => .ok (j, cs.drop w.length)
  | none => number cs

/-- The items of an array after one of them. -/
def items (value : Reader Json) : (fuel : Nat) → Reader (List Json)
  | 0, _ => .error .malformed
  | fuel + 1, cs => do
    let (item, rest) ← value (skip cs)
    match skip rest with
    | ',' :: rest => do
      let (more, left) ← items value fuel rest
      return (item :: more, left)
    | ']' :: rest => return ([item], rest)
    | _ => .error .malformed

/-- The members of an object after its opening brace or after a comma. -/
def members (value : Reader Json) : (fuel : Nat) → (found : List (String × Json)) →
    Reader (List (String × Json))
  | 0, _, _ => .error .malformed
  | fuel + 1, found, cs =>
    match skip cs with
    | '"' :: rest => do
      let (name, rest) ← string (rest.length + 1) rest
      match skip rest with
      | ':' :: rest => do
        let (v, rest) ← value (skip rest)
        let found := setMember found (String.ofList name) v
        match skip rest with
        | ',' :: rest => members value fuel found rest
        | '\x7d' :: rest => return (found, rest)
        | _ => .error .malformed
      | _ => .error .malformed
    | _ => .error .malformed

def value : (depth : Nat) → Reader Json
  | 0, _ => .error .malformed
  | depth + 1, cs =>
    match cs with
    | '"' :: rest => do
      let (s, rest) ← string (rest.length + 1) rest
      return (.str (String.ofList s), rest)
    | '[' :: rest =>
      match skip rest with
      | ']' :: rest => .ok (.array [], rest)
      | rest => do
        let (found, left) ← items (value depth) (rest.length + 1) rest
        return (.array found, left)
    | '\x7b' :: rest =>
      match skip rest with
      | '\x7d' :: rest => .ok (.object [], rest)
      | rest => do
        let (found, left) ← members (value depth) (rest.length + 1) [] rest
        return (.object found, left)
    | cs => scalar cs

/-- The value that a whole text stands for. -/
def read (s : String) : Except ReadFault Json := do
  let cs := s.toList
  let (j, rest) ← value (cs.length + 1) (skip cs)
  if (skip rest).isEmpty then return j else .error .malformed

end Workflow.Json
