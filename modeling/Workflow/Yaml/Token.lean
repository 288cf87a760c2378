import Workflow.Yaml.Cursor

/-! Tokens of YAML texts. -/

namespace Workflow.Yaml

inductive Directive where
  | version (major : Nat)
  | handle (name meaning : String)
  | other
  deriving DecidableEq, Repr

inductive Token where
  | directive (d : Directive)
  | documentStart
  | documentEnd
  | textEnd
  | blockSequence
  | blockMapping
  | blockEnd
  | flowSequence
  | flowSequenceEnd
  | flowMapping
  | flowMappingEnd
  | blockEntry
  | flowEntry
  | key
  | value
  | alias (name : String)
  | anchor (name : String)
  | tag (handle : Option String) (suffix : String)
  | scalar (text : String) (isPlain : Bool)
  deriving DecidableEq, Repr

/-! Names, tags and directives. -/

/-- The name behind the sign of an anchor or an alias. -/
def anchorName (c : Cursor) : Except Fault (String × Cursor) :=
  let name := c.rest.takeWhile isWordChar
  let c := c.skip name.length
  let closes := isBlankOrEnd c.peek || "?:,]\x7d%@\x60".toList.contains c.peek
  if name.isEmpty || !closes then .error .lexical else .ok (String.ofList name, c)

def isUriChar (c : Char) : Bool := c.isAlphanum || "-;/?:@&=+$,_.!~*'()[]%".toList.contains c

/-- A byte written as a percent sign and two digits. -/
def uriByte? : List Char → Option Nat
  | '%' :: a :: b :: _ => hexPair? a b
  | _ => none
where
  hexPair? (a b : Char) : Option Nat := do
    let high ← hexDigit? a
    let low ← hexDigit? b
    some (high * 16 + low)
  hexDigit? (c : Char) : Option Nat :=
    if c.isDigit then some (c.toNat - 48)
    else if 'a' ≤ c && c ≤ 'f' then some (c.toNat - 87)
    else if 'A' ≤ c && c ≤ 'F' then some (c.toNat - 55)
    else none

/-- The bytes of escapes that follow one another. -/
def uriBytes : (fuel : Nat) → Cursor → Except Fault (List Nat × Cursor)
  | 0, c => .ok ([], c)
  | fuel + 1, c =>
    if c.peek == '%' then
      match uriByte? c.rest with
      | some b => do
        let (more, c) ← uriBytes fuel (c.skip 3)
        return (b :: more, c)
      | none => .error .lexical
    else .ok ([], c)

def textOfBytes? (bytes : List Nat) : Option String :=
  String.fromUTF8? ⟨(bytes.map UInt8.ofNat).toArray⟩

/-- The suffix of a tag, in which characters may be escaped. -/
def uri : (fuel : Nat) → Cursor → Except Fault (String × Cursor)
  | 0, c => .ok ("", c)
  | fuel + 1, c =>
    if c.peek == '%' then do
      let (bytes, c) ← uriBytes (c.rest.length + 1) c
      match textOfBytes? bytes with
      | none => .error .lexical
      | some text => do
        let (more, c) ← uri fuel c
        return (text ++ more, c)
    else if isUriChar c.peek then do
      let (more, after) ← uri fuel c.next
      return (c.peek.toString ++ more, after)
    else .ok ("", c)

def neededUri (c : Cursor) : Except Fault (String × Cursor) := do
  let (text, after) ← uri (c.rest.length + 1) c
  if after.index == c.index then .error .lexical else return (text, after)

/-- A handle of tags: an exclamation mark, or a word between two of them. -/
def tagHandle (c : Cursor) : Except Fault (String × Cursor) :=
  if c.peek != '!' then .error .lexical
  else if c.peekAt 1 == ' ' then .ok ("!", c.next)
  else
    let word := (c.rest.drop 1).takeWhile isWordChar
    if c.peekAt (word.length + 1) != '!' then .error .lexical
    else .ok (String.ofList (c.rest.take (word.length + 2)), c.skip (word.length + 2))

/-- Whether another exclamation mark follows before the next space. -/
def hasHandle (c : Cursor) : Bool :=
  ((c.rest.drop 1).takeWhile (fun ch => !isSpaceOrEnd ch)).contains '!'

def tagToken (c : Cursor) : Except Fault (Token × Cursor) := do
  let (handle, suffix, c) ← do
    if c.peekAt 1 == '<' then
      let (suffix, c) ← neededUri (c.skip 2)
      if c.peek != '>' then .error .lexical
      pure (none, suffix, c.next)
    else if isBlankOrEnd (c.peekAt 1) then pure (none, "!", c.next)
    else do
      let (handle, c) ← if hasHandle c then tagHandle c else .ok ("!", c.next)
      let (suffix, c) ← neededUri c
      pure (some handle, suffix, c)
  if isSpaceOrEnd c.peek then return (.tag handle suffix, c) else .error .lexical

def versionNumber (c : Cursor) : Except Fault (Nat × Cursor) :=
  let digits := c.rest.takeWhile Char.isDigit
  if digits.isEmpty then .error .lexical
  else .ok (digits.foldl (fun n d => n * 10 + (d.toNat - 48)) 0, c.skip digits.length)

def versionDirective (c : Cursor) : Except Fault (Directive × Cursor) := do
  let (major, c) ← versionNumber (c.skipWhile (· == ' '))
  if c.peek != '.' then .error .lexical
  let (_, c) ← versionNumber c.next
  if isSpaceOrEnd c.peek then return (.version major, c) else .error .lexical

def handleDirective (c : Cursor) : Except Fault (Directive × Cursor) := do
  let (name, c) ← tagHandle (c.skipWhile (· == ' '))
  if c.peek != ' ' then .error .lexical
  let (meaning, c) ← neededUri (c.skipWhile (· == ' '))
  if isSpaceOrEnd c.peek then return (.handle name meaning, c) else .error .lexical

/-- A directive behind its percent sign, up to the next line. -/
def directiveToken (c : Cursor) : Except Fault (Token × Cursor) := do
  let name := c.rest.takeWhile isWordChar
  let c := c.skip name.length
  if name.isEmpty || !isSpaceOrEnd c.peek then .error .lexical
  let (d, c) ← match String.ofList name with
    | "YAML" => versionDirective c
    | "TAG" => handleDirective c
    | _ => .ok (.other, c.skipWhile (fun ch => !isBreakOrEnd ch))
  return (.directive d, ← c.ignoredLine)

end Workflow.Yaml
