import Workflow.Number.Limit
import Workflow.Text.Letter
import Workflow.Number.Reading

/-! Tokens of the script language, with line ends and indentation as tokens of their own. -/

namespace Workflow.Script

/-- The flags before a text literal. -/
structure TextMarks where
  raw : Bool
  formatted : Bool
  deriving DecidableEq, Repr

inductive Token where
  | name (s : String)
  | int (n : Nat)
  | float (x : Float)
  | text (marks : TextMarks) (body : List Char)
  | op (s : String)
  | newline
  | indent
  | dedent
  deriving Repr

namespace Token

/-- One kind of line end. -/
def unixLines : List Char → List Char
  | [] => []
  | '\r' :: '\n' :: rest => '\n' :: unixLines rest
  | c :: rest => (if c == '\r' then '\n' else c) :: unixLines rest

def operators : List String :=
  ["**=", "//=", ">>=", "<<=", "...", "!=", "->", ":=", "==", "<=", ">=", "+=", "-=", "*=", "/=",
   "%=", "&=", "|=", "^=", "@=", "**", "//", "<<", ">>", "(", ")", "[", "]", "\x7b", "\x7d", "+",
   "-", "*", "/", "%", "&", "|", "^", "~", "<", ">", "=", ",", ":", ";", ".", "@"]

/-- The longest operator at the start of a text. -/
def operator? (cs : List Char) : Option (String × List Char) :=
  operators.findSome? (fun s =>
    if s.toList.isPrefixOf cs then some (s, cs.drop s.length) else none)

/-- Characters that glue to a name or number before it is checked. -/
def isWordChar (c : Char) : Bool :=
  c.isAlphanum || c == '_' || c.toNat ≥ 128

def nameOf? (word : List Char) : Option String :=
  match word with
  | c :: rest =>
    if Text.startsName c && rest.all Text.continuesName then some (String.ofList word) else none
  | [] => none

/-- Keywords that may follow a number at once. -/
def afterNumber : List String := ["and", "else", "for", "if", "in", "is", "not", "or"]

def endsNumber (cs : List Char) : Bool :=
  match cs with
  | c :: _ => !isWordChar c || afterNumber.any (fun word => word.toList.isPrefixOf cs)
  | [] => true

def markedNumber? (base : Nat) (cs : List Char) : Option (Token × List Char) :=
  let body := cs.takeWhile (fun c => c == '_' || (Number.digitValue? c).any (· < base))
  let digits? := match body with
    | '_' :: rest => Number.groupedDigits? base rest
    | rest => Number.groupedDigits? base rest
  digits?.map (fun digits => (.int (Number.ofDigits base digits), cs.drop body.length))

def decimalNumber? (cs : List Char) : Option (Token × List Char) := do
  let (written, rest) ← Number.takeWritten? cs
  let body := cs.take (cs.length - rest.length)
  if body.any (fun c => c == '.' || c == 'e' || c == 'E') then
    some (.float (written.toFloat false), rest)
  else if written.whole.head? == some 0 && written.whole.any (· != 0) then none
  else if written.whole.length > Number.digitLimit then none
  else some (.int (Number.ofDigits 10 written.whole), rest)

def number? (cs : List Char) : Option (Token × List Char) := do
  let found ← match cs with
    | '0' :: mark :: rest =>
      if mark == 'x' || mark == 'X' then markedNumber? 16 rest
      else if mark == 'o' || mark == 'O' then markedNumber? 8 rest
      else if mark == 'b' || mark == 'B' then markedNumber? 2 rest
      else decimalNumber? cs
    | _ => decimalNumber? cs
  if endsNumber found.2 then some found else none

/-- The body of a text literal up to its closing quote, and what follows. -/
def untilQuote (quote : Char) (triple : Bool) : List Char → Option (List Char × List Char)
  | [] => none
  | '\\' :: c :: rest => (untilQuote quote triple rest).map (fun (body, left) => ('\\' :: c :: body, left))
  | c :: rest =>
    if c == quote && !triple then some ([], rest)
    else if c == quote && rest.take 2 == [quote, quote] then some ([], rest.drop 2)
    else if c == '\n' && !triple then none
    else (untilQuote quote triple rest).map (fun (body, left) => (c :: body, left))

def textLiteral? (marks : TextMarks) (cs : List Char) : Option (Token × List Char) :=
  match cs with
  | quote :: rest =>
    let triple := rest.take 2 == [quote, quote]
    (untilQuote quote triple (if triple then rest.drop 2 else rest)).map
      (fun (body, left) => (.text marks body, left))
  | [] => none

def marksOf? (letters : List Char) : Option TextMarks :=
  match letters.map Char.toLower with
  | [] => some ⟨false, false⟩
  | ['u'] => some ⟨false, false⟩
  | ['r'] => some ⟨true, false⟩
  | ['f'] => some ⟨false, true⟩
  | ['r', 'f'] => some ⟨true, true⟩
  | ['f', 'r'] => some ⟨true, true⟩
  | _ => none

/-- Letters of a text literal's flags, when a quote follows them. -/
def textMarks? (cs : List Char) : Option (TextMarks × List Char) :=
  let letters := cs.takeWhile Char.isAlpha
  match cs.drop letters.length with
  | '"' :: _ => (marksOf? letters).map (·, cs.drop letters.length)
  | '\'' :: _ => (marksOf? letters).map (·, cs.drop letters.length)
  | _ => none

def next? (cs : List Char) : Option (Token × List Char) :=
  match textMarks? cs with
  | some (marks, rest) => textLiteral? marks rest
  | none =>
    match cs with
    | [] => none
    | c :: rest =>
      if c.isDigit || (c == '.' && rest.head?.any Char.isDigit) then number? cs
      else if isWordChar c then
        let word := cs.takeWhile isWordChar
        (nameOf? word).map (fun s => (.name s, cs.drop word.length))
      else (operator? cs).map (fun (s, left) => (.op s, left))

/-- The column of the first character that is not white space, with tabs to multiples of eight and
with tabs as one, and the rest of the line. -/
def indentation : (column narrow : Nat) → List Char → Nat × Nat × List Char
  | column, narrow, ' ' :: rest => indentation (column + 1) (narrow + 1) rest
  | column, narrow, '\t' :: rest => indentation ((column / 8 + 1) * 8) (narrow + 1) rest
  | _, _, '\x0c' :: rest => indentation 0 0 rest
  | column, narrow, rest => (column, narrow, rest)

/-- Open blocks, innermost first, as their columns in both counts. The outermost block is not kept. -/
abbrev Blocks := List (Nat × Nat)

/-- Closes the blocks that a line leaves, or opens one. -/
def arrange? (column narrow : Nat) : Blocks → Option (List Token × Blocks)
  | [] =>
    if column == 0 then (if narrow == 0 then some ([], []) else none)
    else if narrow == 0 then none else some ([.indent], [(column, narrow)])
  | (top, topNarrow) :: outer =>
    if column == top then (if narrow == topNarrow then some ([], (top, topNarrow) :: outer) else none)
    else if column > top then
      (if narrow > topNarrow then some ([.indent], (column, narrow) :: (top, topNarrow) :: outer) else none)
    else leave [] ((top, topNarrow) :: outer)
where
  leave (closed : List Token) : Blocks → Option (List Token × Blocks)
    | [] => if column == 0 && narrow == 0 then some (closed, []) else none
    | (top, topNarrow) :: outer =>
      if column < top then leave (.dedent :: closed) outer
      else if column == top && narrow == topNarrow then some (closed, (top, topNarrow) :: outer)
      else none

def depthAfter (depth : Nat) : Token → Nat
  | .op s =>
    if s == "(" || s == "[" || s == "\x7b" then depth + 1
    else if s == ")" || s == "]" || s == "\x7d" then depth - 1
    else depth
  | _ => depth

/-- More brackets may not be open at once. -/
def bracketLimit : Nat := 200

/-- The tokens of a text. `fresh` holds at the start of a line that is not continued, `filled` once
the line has a token, and `depth` counts open brackets. -/
def scan : (fuel : Nat) → (fresh filled : Bool) → (depth : Nat) → Blocks → List Char →
    Option (List Token)
  | 0, _, _, _, _, _ => none
  | fuel + 1, true, _, _, blocks, cs =>
    let (column, narrow, rest) := indentation 0 0 cs
    match rest with
    | [] => some (blocks.map (fun _ => .dedent))
    | '\n' :: more => scan fuel true false 0 blocks more
    | '#' :: more => scan fuel true false 0 blocks (more.dropWhile (· != '\n'))
    | _ => do
      let (tokens, blocks) ← arrange? column narrow blocks
      let later ← scan fuel false false 0 blocks rest
      some (tokens ++ later)
  | fuel + 1, false, filled, depth, blocks, cs =>
    match cs with
    | [] =>
      if depth > 0 then none
      else some ((if filled then [.newline] else []) ++ blocks.map (fun _ => .dedent))
    | '\n' :: rest =>
      if depth > 0 then scan fuel false filled depth blocks rest
      else (scan fuel true false 0 blocks rest).map (.newline :: ·)
    | '\\' :: '\n' :: rest => if rest.isEmpty then none else scan fuel false filled depth blocks rest
    | '#' :: rest => scan fuel false filled depth blocks (rest.dropWhile (· != '\n'))
    | c :: rest =>
      if c == ' ' || c == '\t' || c == '\x0c' then scan fuel false filled depth blocks rest
      else do
        let (token, left) ← next? cs
        let depth := depthAfter depth token
        if depth > bracketLimit then none
        else (scan fuel false true depth blocks left).map (token :: ·)

/-- The tokens of a source, or none if it has no tokens. -/
def ofSource? (cs : List Char) : Option (List Token) :=
  let lines := unixLines cs
  scan (2 * lines.length + 2) true false 0 [] lines

end Token

end Workflow.Script
