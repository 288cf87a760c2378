import Workflow.Number.Reading

/-! Escape sequences in text literals. -/

namespace Workflow.Script.Escape

def simple? (c : Char) : Option Char :=
  match c with
  | '\\' => some '\\'
  | '\'' => some '\''
  | '"' => some '"'
  | 'a' => some '\x07'
  | 'b' => some '\x08'
  | 'f' => some '\x0c'
  | 'n' => some '\n'
  | 'r' => some '\r'
  | 't' => some '\t'
  | 'v' => some '\x0b'
  | _ => none

def isOctal (c : Char) : Bool := '0' ≤ c && c ≤ '7'

/-- How many digits a hexadecimal escape has. -/
def width? (c : Char) : Option Nat :=
  if c == 'x' then some 2 else if c == 'u' then some 4 else if c == 'U' then some 8 else none

/-- The character of a code point. A surrogate is replaced, as no text can hold it. -/
def charOf? (n : Nat) : Option Char :=
  if n > 0x10FFFF then none
  else if 0xD800 ≤ n && n < 0xE000 then some '\uFFFD'
  else some (Char.ofNat n)

/-- The decoded body of a literal that is not raw. A backslash before any other character stays. -/
def decode : (fuel : Nat) → List Char → Option (List Char)
  | 0, _ => none
  | _, [] => some []
  | fuel + 1, '\\' :: '\n' :: rest => decode fuel rest
  | fuel + 1, '\\' :: c :: rest =>
    match simple? c with
    | some d => (decode fuel rest).map (d :: ·)
    | none =>
      if isOctal c then do
        let digits := ((c :: rest).take 3).takeWhile isOctal
        let value := Number.ofDigits 8 (digits.filterMap Number.digitValue?)
        let d ← charOf? value
        (decode fuel ((c :: rest).drop digits.length)).map (d :: ·)
      else match width? c with
        | some width => do
          let digits := (rest.take width).filterMap
            (fun h => (Number.digitValue? h).filter (· < 16))
          if digits.length == width then
            let d ← charOf? (Number.ofDigits 16 digits)
            (decode fuel (rest.drop width)).map (d :: ·)
          else none
        | none =>
          if c == 'N' then none else (decode fuel rest).map (fun left => '\\' :: c :: left)
  | fuel + 1, c :: rest => (decode fuel rest).map (c :: ·)

def text? (raw : Bool) (body : List Char) : Option String :=
  if raw then some (String.ofList body)
  else (decode (body.length + 1) body).map String.ofList

end Workflow.Script.Escape
