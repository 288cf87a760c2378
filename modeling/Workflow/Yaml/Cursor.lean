/-! Places in a YAML text. Past the end of a text stands the null character, which no text holds. -/

namespace Workflow.Yaml

/-- Why a text is no document: at which level it fails. -/
inductive Fault where
  /-- A character that no text may hold. -/
  | characters
  /-- Something that is no token, or a token where it may not stand. -/
  | lexical
  /-- Tokens that form no node. -/
  | structural
  /-- An anchor or an alias that names no node or several, or more than one document. -/
  | reference
  /-- A node that stands for no value. -/
  | content
  /-- An escape with a code beyond all characters. -/
  | escape (isHuge : Bool)
  deriving DecidableEq, Repr

def isAllowed (c : Char) : Bool :=
  let n := c.toNat
  n == 0x9 || n == 0xA || n == 0xD || (0x20 ≤ n && n ≤ 0x7E) || n == 0x85 ||
    (0xA0 ≤ n && n ≤ 0xD7FF) || (0xE000 ≤ n && n ≤ 0xFFFD) || 0x10000 ≤ n

def isBreak (c : Char) : Bool :=
  c == '\n' || c == '\r' || c == '\x85' || c == '\u2028' || c == '\u2029'

def isBreakOrEnd (c : Char) : Bool := c == '\x00' || isBreak c

def isSpaceOrEnd (c : Char) : Bool := c == ' ' || isBreakOrEnd c

def isBlankOrEnd (c : Char) : Bool := c == '\t' || isSpaceOrEnd c

def isWordChar (c : Char) : Bool := c.isAlphanum || c == '-' || c == '_'

/-- What is left of a text, and where that starts. -/
structure Cursor where
  rest : List Char
  index : Nat := 0
  line : Nat := 0
  column : Nat := 0
  deriving Repr

namespace Cursor

def peek (c : Cursor) : Char := c.rest.headD '\x00'

def peekAt (c : Cursor) (n : Nat) : Char := (c.rest.drop n).headD '\x00'

/-- One character further. A mark of byte order takes no column. -/
def next (c : Cursor) : Cursor :=
  match c.rest with
  | [] => c
  | ch :: rest =>
    let endsLine := ch != '\r' && isBreak ch || ch == '\r' && rest.head? != some '\n'
    if endsLine then { rest, index := c.index + 1, line := c.line + 1, column := 0 }
    else if ch == '\uFEFF' then { c with rest, index := c.index + 1 }
    else { c with rest, index := c.index + 1, column := c.column + 1 }

def skip (c : Cursor) : (count : Nat) → Cursor
  | 0 => c
  | count + 1 => c.next.skip count

/-- Past all characters of a kind, of which there are at most as many as are left. -/
def skipWhile (p : Char → Bool) (c : Cursor) : Cursor := c.skip (c.rest.takeWhile p).length

/-- A line break as it is read, if one stands here. -/
def lineBreak (c : Cursor) : List Char × Cursor :=
  match c.rest with
  | '\r' :: '\n' :: _ => (['\n'], c.skip 2)
  | ch :: _ =>
    if ch == '\n' || ch == '\r' || ch == '\x85' then (['\n'], c.next)
    else if isBreak ch then ([ch], c.next)
    else ([], c)
  | [] => ([], c)

/-- Whether three dashes or three dots stand here, with nothing close behind them. -/
def isAtMark (c : Cursor) (mark : Char) : Bool :=
  c.rest.take 3 == [mark, mark, mark] && isBlankOrEnd (c.peekAt 3)

def isAtSeparator (c : Cursor) : Bool := c.isAtMark '-' || c.isAtMark '.'

/-- The rest of a line that may only hold a comment. -/
def ignoredLine (c : Cursor) : Except Fault Cursor :=
  let c := c.skipWhile (· == ' ')
  let c := if c.peek == '#' then c.skipWhile (fun ch => !isBreakOrEnd ch) else c
  if isBreakOrEnd c.peek then .ok c.lineBreak.2 else .error .lexical

end Cursor

end Workflow.Yaml
