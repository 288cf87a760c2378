import Workflow.Script.Arithmetic
import Workflow.Script.Numeral
import Workflow.Yaml.Grammar

/-! Values of documents. A collection is made when it is first met and filled after those that were met
before it, so that it may hold itself. -/

namespace Workflow.Yaml
open Script (Value Act Addr Entries)

/-! Scalars. -/

def boolOfText (text : String) : Act Value := do
  let word := text.map Char.toLower
  if ["yes", "true", "on"].contains word then return .bool true
  else if ["no", "false", "off"].contains word then return .bool false
  else Act.failWith .key [.str word]

/-- The sign of a number and what follows it. A number has at least one character. -/
def signedText (text : String) : Act (Bool × String) := do
  match text.toList.filter (· != '_') with
  | [] => Act.fail .index "string index out of range"
  | cs =>
    let (isNegative, cs) := Number.signed cs
    return (isNegative, String.ofList cs)

/-- The number whose parts to the base sixty are given from the last one on. -/
def ofSixties : List Int → Int
  | [] => 0
  | part :: rest => part + 60 * ofSixties rest

def natOfText (text : String) : Act Int := do
  let rest := String.ofList (text.toList.drop 2)
  match text.toList with
  | [] => Act.fail .index "string index out of range"
  | '0' :: 'b' :: _ => Act.intOfText 2 rest
  | '0' :: 'x' :: _ => Act.intOfText 16 rest
  | ['0'] => return 0
  | '0' :: _ => Act.intOfText 8 text
  | cs =>
    if cs.contains ':' then
      return ofSixties (← (text.splitOn ":").mapM (Act.intOfText 10)).reverse
    else Act.intOfText 10 text

def intOfText (text : String) : Act Value := do
  let (isNegative, text) ← signedText text
  let n ← natOfText text
  return .int (if isNegative then -n else n)

/-- Adds up parts of a number to the base sixty, from the last one on. -/
def addSixties (sum : Float) : (base : Int) → List Float → Act Float
  | _, [] => return sum
  | base, part :: rest => do addSixties (sum + part * (← Act.toFloat base)) (base * 60) rest

def magnitudeOfText (text : String) : Act Float := do
  if text == ".inf" then return Number.infinity false
  else if text.toList.contains ':' then
    addSixties 0.0 1 (← (text.splitOn ":").mapM Act.floatOfText).reverse
  else Act.floatOfText text

def floatOfText (text : String) : Act Value := do
  let (isNegative, text) ← signedText text
  let text := text.map Char.toLower
  if text == ".nan" then return .float (0.0 / 0.0)
  let x ← magnitudeOfText text
  return .float (if isNegative then -x else x)

/-- Refuses what is out of range. -/
def inRange (fault : Option CalendarFault) (v : Value) : Act Value :=
  match fault with
  | none => return v
  | some fault => Act.valueError fault.message

def timeOfText (text : String) : Act Value :=
  match stamp? (withoutBreak text.toList) with
  | some (.inl d) => inRange d.fault? (.date d)
  | some (.inr m) => inRange m.fault? (.moment m)
  | none => Act.fail .attribute "'NoneType' object has no attribute 'groupdict'"

/-! Pairs of mappings. -/

namespace Graph

def tag (g : Graph) (i : Nat) : Tag := (g.node i).tag

def pairs (g : Graph) (i : Nat) : List (Nat × Nat) :=
  match (g.node i).content with
  | .mapping pairs => pairs
  | _ => []

def isMapping (g : Graph) (i : Nat) : Bool :=
  match (g.node i).content with
  | .mapping _ => true
  | _ => false

/-- The pairs that a mapping writes itself. -/
def ownPairs (g : Graph) (i : Nat) : List (Nat × Nat) :=
  (g.pairs i).filter (fun (key, _) => g.tag key != .merge)

/-- The mappings merged into a mapping, those of which later ones hide earlier ones. -/
def mergedNodes (g : Graph) (i : Nat) : Except Fault (List Nat) := do
  let named := (g.pairs i).filter (fun (key, _) => g.tag key == .merge)
  let groups ← named.mapM (fun (_, value) =>
    match (g.node value).content with
    | .mapping _ => .ok [value]
    | .sequence items => if items.all g.isMapping then .ok items.reverse else .error .content
    | .scalar _ => .error .content)
  return groups.flatten

/-- All pairs of a mapping: those merged into it come first. A mapping around this one only gives its
own pairs. -/
def allPairs (g : Graph) : (depth : Nat) → (inside : List Nat) → Nat →
    Except Fault (List (Nat × Nat))
  | 0, _, i => .ok (g.ownPairs i)
  | depth + 1, inside, i => do
    if inside.contains i then return g.ownPairs i
    let merged ← (← g.mergedNodes i).mapM (g.allPairs depth (i :: inside))
    return merged.flatten ++ g.ownPairs i

/-- The text of a scalar. For a mapping it is the text under its value key. -/
def text? (g : Graph) : (depth : Nat) → Nat → Act (Except Fault String)
  | 0, _ => Act.fail .recursion "maximum recursion depth exceeded"
  | depth + 1, i =>
    match (g.node i).content with
    | .scalar text => return .ok text
    | .sequence _ => return .error .content
    | .mapping pairs =>
      match pairs.find? (fun (key, _) => g.tag key == .value) with
      | some (_, value) => g.text? depth value
      | none => return .error .content

end Graph

/-! Making values. -/

/-- The values of the nodes that were met, and collections that are still to be filled. -/
structure Making where
  values : List (Nat × Value) := []
  unfilled : List (Nat × Addr) := []

abbrev Build := StateT Making (ExceptT Fault Act)

namespace Build

def act (a : Act α) : Build α := liftM (m := Act) a

def keep (i : Nat) (v : Value) : Build Value := do
  modify (fun m => { m with values := (i, v) :: m.values })
  return v

def collection (i : Nat) (o : Script.Object) : Build Value := do
  let a ← act (Act.alloc o)
  modify (fun m => { m with unfilled := m.unfilled ++ [(i, a)] })
  keep i (.ref a)

def scalar (g : Graph) (i : Nat) (read : String → Act Value) : Build Value := do
  match ← act (g.text? (g.nodes.size + 1) i) with
  | .ok text => do keep i (← act (read text))
  | .error fault => throw fault

def tagged (g : Graph) (i : Nat) (tag : Tag) : Build Value := do
  match (← get).values.find? (·.1 == i) with
  | some (_, v) => return v
  | none =>
    match tag with
    | .null => scalar g i (fun _ => return .nothing)
    | .bool => scalar g i boolOfText
    | .int => scalar g i intOfText
    | .float => scalar g i floatOfText
    | .timestamp => scalar g i timeOfText
    | .str => scalar g i (fun text => return .str text)
    | .seq => collection i (.list #[])
    | .omap => collection i (.list #[])
    | .pairs => collection i (.list #[])
    | .map => collection i (.dict #[])
    | .set => collection i (.set #[])
    | .binary => throw .content
    | .merge => throw .content
    | .value => throw .content
    | .other => throw .content

def value (g : Graph) (i : Nat) : Build Value := tagged g i (g.tag i)

/-- The value of a key. One with a tag of its own kind is a text. -/
def key (g : Graph) (i : Nat) : Build Value := do
  let v ← tagged g i (if g.tag i == .value then .str else g.tag i)
  match v.unhashable? (← act get) with
  | some _ => throw .content
  | none => return v

def entries (g : Graph) (found : Entries) : List (Nat × Nat) → Build Entries
  | [] => return found
  | (k, v) :: rest => do
    let k ← key g k
    let v ← value g v
    entries g (Entries.insert found k v) rest

def mappingEntries (g : Graph) (i : Nat) : Build Entries := do
  if !g.isMapping i then throw .content
  match g.allPairs g.nodes.size [] i with
  | .ok pairs => entries g #[] pairs
  | .error fault => throw fault

def items (g : Graph) (i : Nat) : Build (List Nat) := do
  match (g.node i).content with
  | .sequence items => return items
  | _ => throw .content

/-- A pair, written as a mapping of its own. -/
def pair (g : Graph) (i : Nat) : Build Value := do
  match (g.node i).content with
  | .mapping [(k, v)] => do
    let k ← value g k
    let v ← value g v
    return .tuple [k, v]
  | _ => throw .content

/-- What a collection holds. -/
def filling (g : Graph) (i : Nat) : Build Script.Object := do
  match g.tag i with
  | .seq => return .list (← (← items g i).mapM (value g)).toArray
  | .map => return .dict (← mappingEntries g i)
  | .set => do
    let found ← mappingEntries g i
    return .set (Script.Members.ofList (found.toList.map (·.1)))
  | _ => return .list (← (← items g i).mapM (pair g)).toArray

/-- Fills collections in the order in which they were met. -/
def fillAll (g : Graph) : (fuel : Nat) → Build Unit
  | 0 => return ()
  | fuel + 1 => do
    match (← get).unfilled with
    | [] => return ()
    | (i, a) :: rest => do
      modify (fun m => { m with unfilled := rest })
      let filled ← filling g i
      act (Act.write a filled)
      fillAll g fuel

end Build

/-- The value of a text. A text without a document stands for nothing. -/
def valueOf (text : String) : Act (Except Fault Value) := do
  match Graph.ofText text with
  | .error (.escape true) =>
    Act.fail .overflow "code beyond all characters"
  | .error (.escape false) => Act.valueError "chr() arg not in range(0x110000)"
  | .error fault => return .error fault
  | .ok none => return .ok .nothing
  | .ok (some g) =>
    let make : Build Value := do
      let v ← Build.value g g.root
      Build.fillAll g (g.nodes.size + 1)
      return v
    match ← (make.run {}).run with
    | .ok (v, _) => return .ok v
    | .error fault => return .error fault

end Workflow.Yaml
