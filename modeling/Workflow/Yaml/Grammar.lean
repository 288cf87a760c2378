import Workflow.Yaml.Lexer
import Workflow.Yaml.Node

/-! From tokens to nodes. A text holds at most one document. -/

namespace Workflow.Yaml

structure Reader where
  lexer : Lexer
  nodes : Array Node := #[]
  anchors : List (String × Nat) := []
  /-- What the handles of tags stand for. -/
  handles : List (String × String) := []

abbrev Reading := EStateM Fault Reader

namespace Reading

def peek : Reading Token := fun r =>
  match r.lexer.peek with
  | .ok (t, lexer) => .ok t { r with lexer }
  | .error fault => .error fault r

def take : Reading Unit := modify (fun r => { r with lexer := r.lexer.take })

/-- Whether the next token is one of some. -/
def sees (tokens : List Token) : Reading Bool := do return tokens.contains (← peek)

def add (n : Node) : Reading Nat := do
  let r ← get
  set { r with nodes := r.nodes.push n }
  return r.nodes.size

/-- The node where nothing is written. -/
def empty : Reading Nat := add default

def fill (i : Nat) (content : Content) : Reading Nat := do
  modify (fun r => { r with nodes := r.nodes.modify i (fun n => { n with content }) })
  return i

/-! Anchors and tags. -/

structure Properties where
  anchor : Option String := none
  tag : Option String := none

def anchor? : Reading (Option String) := do
  match ← peek with
  | .anchor name => do
    take
    return some name
  | _ => return none

def tag? : Reading (Option (Option String × String)) := do
  match ← peek with
  | .tag handle suffix => do
    take
    return some (handle, suffix)
  | _ => return none

/-- The text of a tag. Its handle has to be known. -/
def tagText : Option String × String → Reading String
  | (none, suffix) => return suffix
  | (some handle, suffix) => do
    match (← get).handles.find? (·.1 == handle) with
    | some (_, meaning) => return meaning ++ suffix
    | none => throw .structural

/-- An anchor and a tag, each optional, in either order. -/
def properties : Reading Properties := do
  let before ← anchor?
  let written ← tag?
  let after ← if before.isNone && written.isSome then anchor? else pure none
  let tag ← match written with
    | some parts => do pure (some (← tagText parts))
    | none => pure none
  return { anchor := before.or after, tag }

/-- Adds a node under its anchor, which has to be new. -/
def define (p : Properties) (n : Node) : Reading Nat := do
  match p.anchor with
  | none => add n
  | some name => do
    if (← get).anchors.any (·.1 == name) then throw .reference
    let i ← add n
    modify (fun r => { r with anchors := (name, i) :: r.anchors })
    return i

/-- A tag that is not just an exclamation mark. -/
def Properties.ownTag? (p : Properties) : Option Tag :=
  (p.tag.filter (· != "!")).map Tag.ofText

/-- A scalar without a tag of its own has one by its form if it is plain, or if it is marked by an
exclamation mark. -/
def defineScalar (p : Properties) (text : String) (isPlain : Bool) : Reading Nat := do
  let usual := if isPlain || p.tag.isSome then Tag.ofPlain text else .str
  define p ⟨p.ownTag?.getD usual, .scalar text⟩

mutual

/-- A node. Blocks may start only where they are allowed, and a sequence without an indentation of its
own only as a part of a mapping. -/
def node (isBlock isMember : Bool) : (fuel : Nat) → Reading Nat
  | 0 => throw .structural
  | fuel + 1 => do
    match ← peek with
    | .alias name => do
      take
      match (← get).anchors.find? (·.1 == name) with
      | some (_, i) => return i
      | none => throw .reference
    | _ => do
      let p ← properties
      let sequence := Node.mk (p.ownTag?.getD .seq) (.sequence [])
      let mapping := Node.mk (p.ownTag?.getD .map) (.mapping [])
      match ← peek, isMember, isBlock with
      | .blockEntry, true, _ => do
        let i ← define p sequence
        fill i (.sequence (← memberRows fuel))
      | .scalar text isPlain, _, _ => do
        take
        defineScalar p text isPlain
      | .flowSequence, _, _ => do
        let i ← define p sequence
        take
        fill i (.sequence (← flowRows true fuel))
      | .flowMapping, _, _ => do
        let i ← define p mapping
        take
        fill i (.mapping (← flowPairs true fuel))
      | .blockSequence, _, true => do
        let i ← define p sequence
        take
        fill i (.sequence (← blockRows fuel))
      | .blockMapping, _, true => do
        let i ← define p mapping
        take
        fill i (.mapping (← blockPairs fuel))
      | _, _, _ =>
        if p.anchor.isSome || p.tag.isSome then defineScalar p "" true else throw .structural

/-- A node, or nothing in front of some tokens. -/
def nodeUnless (ends : List Token) (isBlock isMember : Bool) : (fuel : Nat) → Reading Nat
  | 0 => throw .structural
  | fuel + 1 => do if ← sees ends then empty else node isBlock isMember fuel

/-- The value of a pair, which may be missing. -/
def valueUnless (ends : List Token) (isBlock isMember : Bool) : (fuel : Nat) → Reading Nat
  | 0 => throw .structural
  | fuel + 1 => do
    if ← sees [.value] then
      take
      nodeUnless ends isBlock isMember fuel
    else empty

def blockRows : (fuel : Nat) → Reading (List Nat)
  | 0 => throw .structural
  | fuel + 1 => do
    match ← peek with
    | .blockEntry => do
      take
      let item ← nodeUnless [.blockEntry, .blockEnd] true false fuel
      return item :: (← blockRows fuel)
    | .blockEnd => do
      take
      return []
    | _ => throw .structural

/-- The rows of a sequence without an indentation of its own. -/
def memberRows : (fuel : Nat) → Reading (List Nat)
  | 0 => throw .structural
  | fuel + 1 => do
    if ← sees [.blockEntry] then
      take
      let item ← nodeUnless [.blockEntry, .key, .value, .blockEnd] true false fuel
      return item :: (← memberRows fuel)
    else return []

def blockPairs : (fuel : Nat) → Reading (List (Nat × Nat))
  | 0 => throw .structural
  | fuel + 1 => do
    match ← peek with
    | .key => do
      take
      let key ← nodeUnless [.key, .value, .blockEnd] true true fuel
      let value ← valueUnless [.key, .value, .blockEnd] true true fuel
      return (key, value) :: (← blockPairs fuel)
    | .blockEnd => do
      take
      return []
    | _ => throw .structural

/-- The rest of a flow sequence. A pair in it is a mapping of its own. -/
def flowRows (isFirst : Bool) : (fuel : Nat) → Reading (List Nat)
  | 0 => throw .structural
  | fuel + 1 => do
    if ← flowStops isFirst .flowSequenceEnd then return []
    if ← sees [.key] then
      take
      let key ← nodeUnless [.value, .flowEntry, .flowSequenceEnd] false false fuel
      let value ← valueUnless [.flowEntry, .flowSequenceEnd] false false fuel
      let item ← add ⟨.map, .mapping [(key, value)]⟩
      return item :: (← flowRows false fuel)
    else
      let item ← node false false fuel
      return item :: (← flowRows false fuel)

def flowPairs (isFirst : Bool) : (fuel : Nat) → Reading (List (Nat × Nat))
  | 0 => throw .structural
  | fuel + 1 => do
    if ← flowStops isFirst .flowMappingEnd then return []
    if ← sees [.key] then
      take
      let key ← nodeUnless [.value, .flowEntry, .flowMappingEnd] false false fuel
      let value ← valueUnless [.flowEntry, .flowMappingEnd] false false fuel
      return (key, value) :: (← flowPairs false fuel)
    else
      let key ← node false false fuel
      let value ← empty
      return (key, value) :: (← flowPairs false fuel)

/-- Whether a flow collection ends here, past the comma that parts its entries. -/
def flowStops (isFirst : Bool) (last : Token) : Reading Bool := do
  if ← sees [last] then
    take
    return true
  if isFirst then return false
  if !(← sees [.flowEntry]) then throw .structural
  take
  if ← sees [last] then
    take
    return true
  return false

end

/-! Documents. -/

def standardHandles : List (String × String) := [("!", "!"), ("!!", Tag.standard)]

/-- The directives in front of a document. -/
def directives : (fuel : Nat) → (hasVersion : Bool) → Reading Unit
  | 0, _ => throw .structural
  | fuel + 1, hasVersion => do
    match ← peek with
    | .directive d => do
      take
      match d with
      | .version major =>
        if hasVersion || major != 1 then throw .structural
        directives fuel true
      | .handle name meaning =>
        if (← get).handles.any (·.1 == name) then throw .structural
        modify (fun r => { r with handles := r.handles ++ [(name, meaning)] })
        directives fuel hasVersion
      | .other => directives fuel hasVersion
    | _ => modify (fun r => { r with handles := r.handles ++ standardHandles })

def skipDocumentEnds : (fuel : Nat) → Reading Unit
  | 0 => throw .structural
  | fuel + 1 => do
    if ← sees [.documentEnd] then
      take
      skipDocumentEnds fuel

/-- Past the start of a document, if one follows. -/
def startDocument (fuel : Nat) : Reading Bool := do
  skipDocumentEnds fuel
  if ← sees [.textEnd] then return false
  modify (fun r => { r with handles := [] })
  directives fuel false
  if !(← sees [.documentStart]) then throw .structural
  take
  return true

def endsContent : Token → Bool
  | .directive _ => true
  | .documentStart => true
  | .documentEnd => true
  | .textEnd => true
  | _ => false

/-- The document of a text, if it holds one. -/
def document (fuel : Nat) : Reading (Option Nat) := do
  let isMarked := match ← peek with
    | .documentEnd => false
    | t => endsContent t
  let root ← if isMarked then
      if ← startDocument fuel then
        some <$> (if endsContent (← peek) then empty else node true false fuel)
      else pure none
    else do
      modify (fun r => { r with handles := standardHandles })
      some <$> node true false fuel
  if root.isSome then
    if ← sees [.documentEnd] then take
    if ← startDocument fuel then throw .reference
  return root

end Reading

/-- The nodes of a text, if it holds a document. -/
def Graph.ofText (s : String) : Except Fault (Option Graph) :=
  let cs := s.toList
  if !cs.all isAllowed then .error .characters
  else
    match Reading.document (4 * cs.length + 16) { lexer := { cursor := { rest := cs } } } with
    | .ok root r => .ok (root.map (fun root => { nodes := r.nodes, root }))
    | .error fault _ => .error fault

end Workflow.Yaml
