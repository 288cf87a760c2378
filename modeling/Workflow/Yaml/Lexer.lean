import Workflow.Yaml.Scalar
import Workflow.Yaml.Token

/-! From text to tokens. A key without a sign of its own is known only by the colon behind it. So a
token that may start such a key waits until it is clear whether the colon comes. -/

namespace Workflow.Yaml

/-- A place where a key without a sign may have started. It is required when a block can only go on
with a key there. -/
structure Candidate where
  token : Nat
  required : Bool
  index : Nat
  line : Nat
  column : Nat
  deriving Repr

structure Lexer where
  cursor : Cursor
  /-- Tokens that were read and not taken. -/
  queue : List Token := []
  /-- How many tokens were taken. -/
  taken : Nat := 0
  /-- How many flow collections are open. -/
  flow : Int := 0
  /-- The column of the innermost block, and those of the blocks around it. -/
  indent : Int := -1
  indents : List Int := []
  allowsKey : Bool := true
  /-- Candidates by the flow collections around them. -/
  candidates : List (Int × Candidate) := []
  done : Bool := false
  deriving Repr

namespace Lexer

def inFlow (l : Lexer) : Bool := l.flow != 0

def push (t : Token) (l : Lexer) : Lexer := { l with queue := l.queue ++ [t] }

/-- A candidate that has not become a key by the end of its line, or in 1024 characters, never does. -/
def isStale (l : Lexer) (k : Candidate) : Bool :=
  k.line != l.cursor.line || l.cursor.index > k.index + 1024

def dropStale (l : Lexer) : Except Fault Lexer :=
  if l.candidates.any (fun (_, k) => l.isStale k && k.required) then .error .lexical
  else .ok { l with candidates := l.candidates.filter (fun (_, k) => !l.isStale k) }

def dropCandidate (l : Lexer) : Except Fault Lexer :=
  if l.candidates.any (fun (flow, k) => flow == l.flow && k.required) then .error .lexical
  else .ok { l with candidates := l.candidates.filter (fun (flow, _) => flow != l.flow) }

/-- Takes the current place for one where a key may start. -/
def saveCandidate (l : Lexer) : Except Fault Lexer := do
  if !l.allowsKey then return l
  let required := !l.inFlow && l.indent == l.cursor.column
  let l ← l.dropCandidate
  let k : Candidate :=
    { token := l.taken + l.queue.length, required, index := l.cursor.index
      line := l.cursor.line, column := l.cursor.column }
  return { l with candidates := l.candidates ++ [(l.flow, k)] }

def closeBlocks (l : Lexer) (column : Int) : Lexer :=
  if l.inFlow then l
  else
    let closed := (l.indent :: l.indents).takeWhile (· > column)
    let left := (l.indent :: l.indents).drop closed.length
    { l with
      queue := l.queue ++ closed.map (fun _ => Token.blockEnd)
      indent := left.headD (-1)
      indents := left.tail }

/-- Opens a block at a column unless one is open there. -/
def openBlock (l : Lexer) (column : Nat) : Option Lexer :=
  if l.indent < column then
    some { l with indents := l.indent :: l.indents, indent := column }
  else none

/-- Past blanks, comments and line breaks. Behind a line break a key may start. -/
def skipGap : (fuel : Nat) → Lexer → Lexer
  | 0, l => l
  | fuel + 1, l =>
    let c := l.cursor.skipWhile (· == ' ')
    let c := if c.peek == '#' then c.skipWhile (fun ch => !isBreakOrEnd ch) else c
    if isBreak c.peek then
      skipGap fuel { l with cursor := c.lineBreak.2, allowsKey := l.allowsKey || !l.inFlow }
    else { l with cursor := c }

def ended (l : Lexer) : Except Fault Lexer := do
  let l ← (l.closeBlocks (-1)).dropCandidate
  return { l with allowsKey := false, candidates := [], done := true }.push .textEnd

def directive (l : Lexer) : Except Fault Lexer := do
  let l ← (l.closeBlocks (-1)).dropCandidate
  let (t, cursor) ← directiveToken l.cursor.next
  return { l with allowsKey := false, cursor }.push t

/-- Three dashes or three dots. -/
def separator (l : Lexer) (t : Token) : Except Fault Lexer := do
  let l ← (l.closeBlocks (-1)).dropCandidate
  return { l with allowsKey := false, cursor := l.cursor.skip 3 }.push t

def openFlow (l : Lexer) (t : Token) : Except Fault Lexer := do
  let l ← l.saveCandidate
  return { l with flow := l.flow + 1, allowsKey := true, cursor := l.cursor.next }.push t

def closeFlow (l : Lexer) (t : Token) : Except Fault Lexer := do
  let l ← l.dropCandidate
  return { l with flow := l.flow - 1, allowsKey := false, cursor := l.cursor.next }.push t

def flowEntry (l : Lexer) : Except Fault Lexer := do
  let l ← { l with allowsKey := true }.dropCandidate
  return { l with cursor := l.cursor.next }.push .flowEntry

/-- Opens a block here where that is needed, and refuses to where no key may start. -/
def opened (l : Lexer) (t : Token) : Except Fault Lexer :=
  if l.inFlow then .ok l
  else if !l.allowsKey then .error .lexical
  else .ok (((l.openBlock l.cursor.column).map (push t)).getD l)

def blockEntry (l : Lexer) : Except Fault Lexer := do
  let l ← l.opened .blockSequence
  let l ← { l with allowsKey := true }.dropCandidate
  return { l with cursor := l.cursor.next }.push .blockEntry

def key (l : Lexer) : Except Fault Lexer := do
  let l ← l.opened .blockMapping
  let l ← { l with allowsKey := !l.inFlow }.dropCandidate
  return { l with cursor := l.cursor.next }.push .key

/-- Makes a key of what started at a candidate. -/
def confirm (l : Lexer) (k : Candidate) : Lexer :=
  let (before, after) := l.queue.splitAt (k.token - l.taken)
  let candidates := l.candidates.filter (fun (flow, _) => flow != l.flow)
  let l := { l with candidates, allowsKey := false }
  match if l.inFlow then none else l.openBlock k.column with
  | some l => { l with queue := before ++ [.blockMapping, .key] ++ after }
  | none => { l with queue := before ++ [.key] ++ after }

def value (l : Lexer) : Except Fault Lexer := do
  let l ← match l.candidates.find? (·.1 == l.flow) with
    | some (_, k) => .ok (l.confirm k)
    | none => do
      let l ← l.opened .blockMapping
      { l with allowsKey := !l.inFlow }.dropCandidate
  return { l with cursor := l.cursor.next }.push .value

def starting (l : Lexer) (read : Cursor → Except Fault (Token × Cursor)) : Except Fault Lexer := do
  let l ← l.saveCandidate
  let (t, cursor) ← read l.cursor
  return { l with allowsKey := false, cursor }.push t

def named (make : String → Token) (c : Cursor) : Except Fault (Token × Cursor) := do
  let (name, c) ← anchorName c.next
  return (make name, c)

def quoted (isDouble : Bool) (c : Cursor) : Except Fault (Token × Cursor) := do
  let (text, c) ← quotedFrom isDouble (c.rest.length + 1) c.next
  return (.scalar (String.ofList text) false, c)

def block (isFolded : Bool) (l : Lexer) : Except Fault Lexer := do
  let l ← { l with allowsKey := true }.dropCandidate
  let (text, cursor) ← blockScalar isFolded l.indent l.cursor.next
  return { l with cursor }.push (.scalar (String.ofList text) false)

def plain (l : Lexer) : Except Fault Lexer := do
  let l ← l.saveCandidate
  let (text, cursor, ended) :=
    plainFrom l.inFlow (l.indent + 1) (l.cursor.rest.length + 1) l.cursor [] false
  return { l with allowsKey := ended, cursor }.push (.scalar (String.ofList text) true)

def startsPlain (l : Lexer) : Bool :=
  let ch := l.cursor.peek
  let next := l.cursor.peekAt 1
  let signs := "-?:,[]\x7b\x7d#&*!|>'\"%@\x60".toList
  (!isBlankOrEnd ch && !signs.contains ch) ||
    (!isBlankOrEnd next && (ch == '-' || (!l.inFlow && (ch == '?' || ch == ':'))))

/-- Reads on by one token, with the blocks that it opens or closes. -/
def advance (l : Lexer) : Except Fault Lexer := do
  let c := l.cursor
  let l := if c.index == 0 && c.peek == '\uFEFF' then { l with cursor := c.next } else l
  let l ← (skipGap (l.cursor.rest.length + 1) l).dropStale
  let l := l.closeBlocks l.cursor.column
  let c := l.cursor
  let ch := c.peek
  let stands := l.inFlow || isBlankOrEnd (c.peekAt 1)
  if ch == '\x00' then l.ended
  else if ch == '%' && c.column == 0 then l.directive
  else if c.column == 0 && c.isAtMark '-' then l.separator .documentStart
  else if c.column == 0 && c.isAtMark '.' then l.separator .documentEnd
  else if ch == '[' then l.openFlow .flowSequence
  else if ch == '\x7b' then l.openFlow .flowMapping
  else if ch == ']' then l.closeFlow .flowSequenceEnd
  else if ch == '\x7d' then l.closeFlow .flowMappingEnd
  else if ch == ',' then l.flowEntry
  else if ch == '-' && isBlankOrEnd (c.peekAt 1) then l.blockEntry
  else if ch == '?' && stands then l.key
  else if ch == ':' && stands then l.value
  else if ch == '*' then l.starting (named .alias)
  else if ch == '&' then l.starting (named .anchor)
  else if ch == '!' then l.starting tagToken
  else if ch == '|' && !l.inFlow then l.block false
  else if ch == '>' && !l.inFlow then l.block true
  else if ch == '\'' then l.starting (quoted false)
  else if ch == '"' then l.starting (quoted true)
  else if l.startsPlain then l.plain
  else .error .lexical

/-- Whether the next token may still turn out to start a key. -/
def isWaiting (l : Lexer) : Bool :=
  l.queue.isEmpty || l.candidates.any (fun (_, k) => k.token == l.taken)

/-- Reads on until the next token is certain. -/
def settle : (fuel : Nat) → Lexer → Except Fault Lexer
  | 0, l => .ok l
  | fuel + 1, l => do
    if l.done then return l
    if l.queue.isEmpty then settle fuel (← l.advance)
    else
      let l ← l.dropStale
      if l.isWaiting then settle fuel (← l.advance) else return l

/-- The next token, which stays in the queue. -/
def peek (l : Lexer) : Except Fault (Token × Lexer) := do
  let l ← settle (l.cursor.rest.length + 2) l
  return (l.queue.headD .textEnd, l)

def take (l : Lexer) : Lexer := { l with queue := l.queue.tail, taken := l.taken + 1 }

end Lexer

end Workflow.Yaml
