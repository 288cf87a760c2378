import Workflow.Script.Arithmetic
import Workflow.Script.Index
import Workflow.Script.Percent
import Workflow.Text.Search

/-! Operators and comparisons on values of every kind. -/

namespace Workflow.Script

/-- The row that a value repeats or joins, if it is one. -/
inductive Row where
  | text (cs : List Char)
  | tuple (items : List Value)
  | list (items : Array Value)

def Value.row? (h : Heap) : Value → Option Row
  | .str s => some (.text s.toList)
  | .tuple items => some (.tuple items)
  | .ref a =>
    match h.object a with
    | .list items => some (.list items)
    | _ => none
  | _ => none

namespace Row

def kind : Row → String
  | .text _ => "str"
  | .tuple _ => "tuple"
  | .list _ => "list"

def repeated (count : Int) (items : List α) : List α :=
  (List.replicate count.toNat items).flatten

def times (r : Row) (count : Int) : Act Value := do
  match r with
  | .text cs => return .str (String.ofList (repeated count cs))
  | .tuple items => return .tuple (repeated count items)
  | .list items => Act.newList (repeated count items.toList).toArray

/-- Two rows of one kind, one after the other. -/
def join? : Row → Row → Option (Act Value)
  | .text cs, .text ds => some (return .str (String.ofList (cs ++ ds)))
  | .tuple xs, .tuple ys => some (return .tuple (xs ++ ys))
  | .list xs, .list ys => some (Act.newList (xs ++ ys))
  | _, _ => none

end Row

/-- The members of a set, or of a view that can stand for one. -/
def Value.members? (h : Heap) : Value → Option (Array Value)
  | .ref a =>
    match h.object a with
    | .set members => some members
    | .view .keys source => some (Part.row h .keys source).toArray
    | .view .items source => some (Part.row h .items source).toArray
    | _ => none
  | _ => none

def combineSets (op : BinaryOp) (xs ys : Array Value) : Option (Array Value) :=
  let inBoth := xs.filter (Members.contains ys)
  let onlyFirst := xs.filter (fun v => !Members.contains ys v)
  let onlySecond := ys.filter (fun v => !Members.contains xs v)
  match op with
  | .bitAnd => some inBoth
  | .bitOr => some (xs ++ onlySecond)
  | .bitXor => some (onlyFirst ++ onlySecond)
  | .sub => some onlyFirst
  | _ => none

namespace Act

def unsupported (title : String) (v w : Value) : Act α := do
  typeError s!"unsupported operand type(s) for {title}: '{← typeName v}' and '{← typeName w}'"

def add (title : String) (v w : Value) : Act Value := do
  let h ← get
  match v.row? h, w.row? h with
  | some r, some s =>
    match r.join? s with
    | some joined => joined
    | none =>
      typeError s!"can only concatenate {r.kind} (not \"{← typeName w}\") to {r.kind}"
  | some r, none =>
    typeError s!"can only concatenate {r.kind} (not \"{← typeName w}\") to {r.kind}"
  | none, _ => unsupported title v w

def multiply (title : String) (v w : Value) : Act Value := do
  let h ← get
  match v.row? h, v.int?, w.row? h, w.int? with
  | some r, _, _, some n => r.times n
  | _, some n, some r, _ => r.times n
  | some _, _, _, none => typeError s!"can't multiply sequence by non-int of type '{← typeName w}'"
  | none, none, some _, _ =>
    typeError s!"can't multiply sequence by non-int of type '{← typeName v}'"
  | _, _, _, _ => unsupported title v w

/-- Operators on sets and dictionaries. -/
def combine (op : BinaryOp) (title : String) (v w : Value) : Act Value := do
  let h ← get
  match v.members? h, w.members? h with
  | some xs, some ys =>
    match combineSets op xs ys with
    | some members => newSet members
    | none => unsupported title v w
  | _, _ =>
    match op, v, w with
    | .bitOr, .ref a, .ref b =>
      match h.object a, h.object b with
      | .dict xs, .dict ys => newDict (Entries.insertAll xs ys)
      | _, _ => unsupported title v w
    | _, _, _ => unsupported title v w

/-- An operator on two values; a refusal names the operator by its title. -/
def binaryAs (title : String) (op : BinaryOp) (v w : Value) : Act Value := do
  match ← numberOp op v w with
  | some found => return found
  | none =>
    match op, v with
    | .add, _ => add title v w
    | .mul, _ => multiply title v w
    | .mod, .str s => Value.str <$> formatPercent s w
    | _, _ => combine op title v w

def binary (op : BinaryOp) (v w : Value) : Act Value := binaryAs op.title op v w

/-- The pairs of an iterable of pairs, for a dictionary. `i` counts them. -/
def pairs (m : Machine) : (items : List Value) → (i : Nat) → Act (List (Value × Value))
  | [], _ => return []
  | v :: rest, i => do
    match ← iterate? v with
    | none =>
      typeError s!"cannot convert dictionary update sequence element #{i} to a sequence"
    | some a =>
      let parts ← drain m a
      match parts.toList with
      | [key, value] =>
        checkKey key
        return (key, value) :: (← pairs m rest (i + 1))
      | parts =>
        valueError
          s!"dictionary update sequence element #{i} has length {parts.length}; 2 is required"

/-- The entries of a mapping or of an iterable of pairs. -/
def entriesOf (m : Machine) (v : Value) : Act Entries := do
  let pairs := do
    let items ← itemsOf m v
    return (← pairs m items.toList 0).toArray
  match v with
  | .ref a =>
    match ← object a with
    | .dict entries => return entries
    | _ => pairs
  | _ => pairs

/-- An operator that changes its left operand where that can be changed. -/
def augment (m : Machine) (op : BinaryOp) (v w : Value) : Act Value := do
  let title := op.sign ++ "="
  match v with
  | .ref a =>
    match ← object a, op with
    | .list items, .add =>
      let more ← itemsOf m w
      write a (.list (items ++ more))
      return v
    | .list items, .mul =>
      match w.int? with
      | some n =>
        write a (.list (Row.repeated n items.toList).toArray)
        return v
      | none => binaryAs title op v w
    | .dict _, .mul => unsupported title v w
    | .set _, .mul => unsupported title v w
    | .view _ _, .mul => unsupported title v w
    | .set members, op =>
      match w with
      | .ref b =>
        match ← object b with
        | .set others =>
          match combineSets op members others with
          | some members =>
            write a (.set members)
            return v
          | none => binaryAs title op v w
        | _ => binaryAs title op v w
      | _ => binaryAs title op v w
    | .dict entries, .bitOr =>
      let more ← entriesOf m w
      write a (.dict (Entries.insertAll entries more))
      return v
    | _, _ => binaryAs title op v w
  | _ => binaryAs title op v w

/-- Whether an item turns up in an iterator. -/
def turnsUp (m : Machine) (v : Value) (a : Addr) : (fuel : Nat) → Act Bool
  | 0 => throw .exhausted
  | fuel + 1 => do
    match ← m.next a with
    | none => return false
    | some w => if ← matching w v then return true else turnsUp m v a fuel

def member (m : Machine) (v collection : Value) : Act Bool := do
  match collection, v with
  | .str s, .str part => return Text.contains part.toList s.toList
  | .str _, v => typeError s!"'in <string>' requires string as left operand, not {← typeName v}"
  | .tuple items, v => return (← position? v items 0).isSome
  | .ref a, v =>
    match ← object a with
    | .list items => return (← position? v items.toList 0).isSome
    | .dict entries =>
      checkKey v
      return (Entries.get? entries v).isSome
    | .set members =>
      checkKey v
      return Members.contains members v
    | .view .keys source =>
      checkKey v
      return Members.contains (Part.row (← get) .keys source).toArray v
    | .view part source => return (← position? v (part.row (← get) source) 0).isSome
    | .iterator _ => turnsUp m v a m.fuel
    | _ => typeError s!"argument of type '{← typeName collection}' is not iterable"
  | .range start stop step, v =>
    match v.int? with
    | some n =>
      let first := (n - start) * (if step > 0 then 1 else -1)
      return 0 ≤ first && first % step.natAbs == 0 &&
        (first / step.natAbs).toNat < rangeLength start stop step
    | none => turnsUp m v (← iterate collection) m.fuel
  | collection, _ => typeError s!"argument of type '{← typeName collection}' is not iterable"

def compare (m : Machine) (c : Comparison) (v w : Value) : Act Bool := do
  match c with
  | .equal => equal v w
  | .notEqual => return !(← equal v w)
  | .less => ordered .less v w
  | .lessEqual => ordered .lessEqual v w
  | .greater => ordered .greater v w
  | .greaterEqual => ordered .greaterEqual v w
  | .same => return v.same w
  | .notSame => return !v.same w
  | .member => member m v w
  | .notMember => return !(← member m v w)

end Act

end Workflow.Script
