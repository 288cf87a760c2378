import Workflow.Number.Reading
import Workflow.Yaml.Cursor

/-! Scalars: plain ones, quoted ones, and blocks of text. -/

namespace Workflow.Yaml

/-! Plain scalars. -/

def endsPlain (inFlow : Bool) (ch : Char) (rest : List Char) : Bool :=
  let next := rest.headD '\x00'
  isBlankOrEnd ch ||
    (ch == ':' && (isBlankOrEnd next || (inFlow && [',', '[', ']', '\x7b', '\x7d'].contains next))) ||
    (inFlow && [',', '?', '[', ']', '\x7b', '\x7d'].contains ch)

/-- The characters of a plain scalar up to the next blank. -/
def plainRun (inFlow : Bool) : List Char → List Char
  | [] => []
  | ch :: rest => if endsPlain inFlow ch rest then [] else ch :: plainRun inFlow rest

/-- Blanks and line breaks, and the breaks among them, up to a separator of documents. -/
def plainBreaks : (fuel : Nat) → Cursor → List Char → Option (List Char) × Cursor
  | 0, c, breaks => (some breaks, c)
  | fuel + 1, c, breaks =>
    if c.peek == ' ' then plainBreaks fuel c.next breaks
    else if isBreak c.peek then
      let (b, c) := c.lineBreak
      if c.isAtSeparator then (none, c) else plainBreaks fuel c (breaks ++ b)
    else (some breaks, c)

/-- What line breaks stand for in a folded text: a single one is a blank, and of several the first
goes away. -/
def folded (first rest : List Char) : List Char :=
  if first != ['\n'] then first ++ rest else if rest.isEmpty then [' '] else rest

/-- The blanks inside a plain scalar, as they are read, and whether a line ended among them. -/
def plainSpaces (c : Cursor) : List Char × Cursor × Bool :=
  let spaces := c.rest.takeWhile (· == ' ')
  let c := c.skip spaces.length
  if isBreak c.peek then
    let (first, c) := c.lineBreak
    if c.isAtSeparator then ([], c, true)
    else
      match plainBreaks c.rest.length c [] with
      | (none, c) => ([], c, true)
      | (some breaks, c) => (folded first breaks, c, true)
  else (spaces, c, false)

/-- The rest of a plain scalar, with the blanks before it, and whether a line ended last. -/
def plainFrom (inFlow : Bool) (indent : Int) : (fuel : Nat) → Cursor → (spaces : List Char) →
    (ended : Bool) → List Char × Cursor × Bool
  | 0, c, _, ended => ([], c, ended)
  | fuel + 1, c, spaces, ended =>
    let run := if c.peek == '#' then [] else plainRun inFlow c.rest
    if run.isEmpty then ([], c, ended)
    else
      let (more, c, ended) := plainSpaces (c.skip run.length)
      if more.isEmpty || c.peek == '#' || (!inFlow && (c.column : Int) < indent) then
        (spaces ++ run, c, ended)
      else
        let (text, c, ended) := plainFrom inFlow indent fuel c more ended
        (spaces ++ run ++ text, c, ended)

/-! Quoted scalars. -/

def escapes : List (Char × Char) :=
  [('0', '\x00'), ('a', '\x07'), ('b', '\x08'), ('t', '\t'), ('\t', '\t'), ('n', '\n'),
   ('v', '\x0b'), ('f', '\x0c'), ('r', '\r'), ('e', '\x1b'), (' ', ' '), ('"', '"'),
   ('\\', '\\'), ('/', '/'), ('N', '\x85'), ('_', '\xa0'), ('L', '\u2028'), ('P', '\u2029')]

/-- How many digits the code of an escape has. -/
def codeLength? : Char → Option Nat
  | 'x' => some 2
  | 'u' => some 4
  | 'U' => some 8
  | _ => none

/-- The value of some hexadecimal digits. -/
def hexCode? (cs : List Char) : Option Nat := do
  let digits ← cs.mapM (fun c => do
    let d ← Number.digitValue? c
    if d < 16 then some d else none)
  some (Number.ofDigits 16 digits)

def codeChar (code : Nat) : Except Fault Char :=
  if code ≥ 0x80000000 then .error (.escape true)
  else if code ≥ 0x110000 then .error (.escape false)
  else .ok (if code.isValidChar then Char.ofNat code else '\ufffd')

/-- The breaks before the next characters of a quoted scalar. -/
def quotedBreaks : (fuel : Nat) → Cursor → Except Fault (List Char × Cursor)
  | 0, c => .ok ([], c)
  | fuel + 1, c =>
    if c.isAtSeparator then .error .lexical
    else
      let c := c.skipWhile (fun ch => ch == ' ' || ch == '\t')
      if isBreak c.peek then do
        let (b, c) := c.lineBreak
        let (more, c) ← quotedBreaks fuel c
        return (b ++ more, c)
      else .ok ([], c)

/-- What an escape stands for, after its backslash. -/
def escape (c : Cursor) : Except Fault (List Char × Cursor) := do
  let ch := c.peek
  match escapes.find? (·.1 == ch) with
  | some (_, plain) => .ok ([plain], c.next)
  | none =>
    match codeLength? ch with
    | some count =>
      let c := c.next
      let digits := c.rest.take count
      if digits.length < count then .error .lexical
      match hexCode? digits with
      | some code => return ([← codeChar code], c.skip count)
      | none => .error .lexical
    | none =>
      if isBreak ch then
        let c := c.lineBreak.2
        quotedBreaks (c.rest.length + 1) c
      else .error .lexical

/-- The blanks inside a quoted scalar, as they are read. -/
def quotedSpaces (c : Cursor) : Except Fault (List Char × Cursor) := do
  let spaces := c.rest.takeWhile (fun ch => ch == ' ' || ch == '\t')
  let c := c.skip spaces.length
  if c.peek == '\x00' then .error .lexical
  else if isBreak c.peek then
    let (first, c) := c.lineBreak
    let (breaks, c) ← quotedBreaks (c.rest.length + 1) c
    return (folded first breaks, c)
  else .ok (spaces, c)

/-- The characters of a quoted scalar up to its closing quote. -/
def quotedFrom (isDouble : Bool) : (fuel : Nat) → Cursor → Except Fault (List Char × Cursor)
  | 0, _ => .error .lexical
  | fuel + 1, c => do
    let ch := c.peek
    let (piece, after) ← do
      if !isDouble && ch == '\'' && c.peekAt 1 == '\'' then pure (['\''], c.skip 2)
      else if isDouble && ch == '\\' then escape c.next
      else if isBlankOrEnd ch then quotedSpaces c
      else if ch == (if isDouble then '"' else '\'') then return ([], c.next)
      else pure ([ch], c.next)
    let (text, c) ← quotedFrom isDouble fuel after
    return (piece ++ text, c)

/-! Blocks of text. -/

/-- What becomes of the line breaks at the end of a block of text. -/
inductive Chomping where
  | strip | clip | keep
  deriving DecidableEq, Repr

def chomping? : Char → Option Chomping
  | '+' => some .keep
  | '-' => some .strip
  | _ => none

/-- A digit that tells how far a block of text is indented. -/
def indentDigit (c : Cursor) : Except Fault (Option Nat × Cursor) :=
  if c.peek.isDigit then
    if c.peek == '0' then .error .lexical else .ok (some (c.peek.toNat - 48), c.next)
  else .ok (none, c)

/-- The marks behind the sign of a block of text, in either order. -/
def blockMarks (c : Cursor) : Except Fault (Chomping × Option Nat × Cursor) := do
  let (chomping, indent, c) ← match chomping? c.peek with
    | some chomping => do
      let (indent, c) ← indentDigit c.next
      pure (chomping, indent, c)
    | none => do
      let (indent, c) ← indentDigit c
      match indent, chomping? c.peek with
      | some _, some chomping => pure (chomping, indent, c.next)
      | _, _ => pure (.clip, indent, c)
  if isSpaceOrEnd c.peek then return (chomping, indent, c) else .error .lexical

/-- The empty lines at the start of a block of text, and the widest indentation among the blanks. -/
def blockStart : (fuel : Nat) → Cursor → (widest : Nat) → List Char × Nat × Cursor
  | 0, c, widest => ([], widest, c)
  | fuel + 1, c, widest =>
    if c.peek == ' ' then blockStart fuel c.next (max widest c.next.column)
    else if isBreak c.peek then
      let (b, c) := c.lineBreak
      let (breaks, widest, c) := blockStart fuel c widest
      (b ++ breaks, widest, c)
    else ([], widest, c)

def indentation (indent : Nat) (c : Cursor) : Cursor :=
  c.skip (min (indent - c.column) (c.rest.takeWhile (· == ' ')).length)

/-- Empty lines, and the indentation of the line behind them. -/
def blockBreaks (indent : Nat) : (fuel : Nat) → Cursor → List Char × Cursor
  | 0, c => ([], c)
  | fuel + 1, c =>
    let c := indentation indent c
    if isBreak c.peek then
      let (b, c) := c.lineBreak
      let (breaks, c) := blockBreaks indent fuel c
      (b ++ breaks, c)
    else ([], c)

/-- The lines of a block of text after some empty lines. With them come the last line break and the
empty lines at the end. -/
def blockLines (isFolded : Bool) (indent : Nat) : (fuel : Nat) → Cursor →
    (breaks : List Char) → (ending : List Char) → List Char × List Char × List Char × Cursor
  | 0, c, breaks, ending => ([], ending, breaks, c)
  | fuel + 1, c, breaks, ending =>
    if c.column == indent && c.peek != '\x00' then
      let opens := c.peek != ' ' && c.peek != '\t'
      let line := c.rest.takeWhile (fun ch => !isBreakOrEnd ch)
      let (ending, c) := (c.skip line.length).lineBreak
      let (after, c) := blockBreaks indent (c.rest.length + 1) c
      if c.column == indent && c.peek != '\x00' then
        let joins := isFolded && ending == ['\n'] && opens && c.peek != ' ' && c.peek != '\t'
        let gap := if !joins then ending else if after.isEmpty then [' '] else []
        let (text, last, tail, c) := blockLines isFolded indent fuel c after ending
        (breaks ++ line ++ gap ++ text, last, tail, c)
      else (breaks ++ line, ending, after, c)
    else ([], ending, breaks, c)

/-- A block of text after its sign, inside a block of some indentation. -/
def blockScalar (isFolded : Bool) (around : Int) (c : Cursor) : Except Fault (List Char × Cursor) := do
  let (chomping, step, c) ← blockMarks c
  let c ← c.ignoredLine
  let least := max (around + 1) 1
  let (breaks, indent, c) := match step with
    | some step =>
      let indent := (least + step - 1).toNat
      let (breaks, c) := blockBreaks indent (c.rest.length + 1) c
      (breaks, indent, c)
    | none =>
      let (breaks, widest, c) := blockStart (c.rest.length + 1) c 0
      (breaks, max least.toNat widest, c)
  let (text, ending, tail, c) := blockLines isFolded indent (c.rest.length + 1) c breaks []
  let kept := match chomping with
    | .strip => []
    | .clip => ending
    | .keep => ending ++ tail
  return (text ++ kept, c)

end Workflow.Yaml
