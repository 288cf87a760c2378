import Workflow.Script.Act

/-! Walking over values item by item. -/

namespace Workflow.Script

/-- The parts of a view's dictionary. -/
def Part.row (h : Heap) (part : Part) (source : Addr) : List Value :=
  match h.object source with
  | .dict entries => entries.toList.map part.of
  | _ => []

def isAscii (cs : List Char) : Bool := cs.all (fun c => c.toNat < 128)

/-- The iterator over a value, or none if the value cannot be walked over. -/
def Value.iterator? (h : Heap) : Value → Option Iterator
  | .str s => some (.text (isAscii s.toList) s.toList)
  | .tuple items => some (.tuple items)
  | .range start stop step => some (.range start step (rangeLength start stop step))
  | .ref a =>
    match h.object a with
    | .list _ => some (.list a 0)
    | .dict entries => some (.entries .keys a entries.size 0)
    | .set members => some (.set (Members.walk members) a members.size)
    | .view part source =>
      match h.object source with
      | .dict entries => some (.entries part source entries.size 0)
      | _ => none
    | _ => none
  | _ => none

/-- The address of an iterator over a value; an iterator walks over itself. -/
def Act.iterate? (v : Value) : Act (Option Addr) := do
  let h ← get
  match v.iterator? h with
  | some it => some <$> alloc (.iterator it)
  | none =>
    match v with
    | .ref a =>
      match h.object a with
      | .iterator _ => return some a
      | _ => return none
    | _ => return none

def Act.iterate (v : Value) : Act Addr := do
  match ← iterate? v with
  | some a => return a
  | none => typeError s!"'{← typeName v}' object is not iterable"

/-- The items of an iterator that are left, as far as the fuel reaches. -/
def drainFrom (m : Machine) (a : Addr) : (fuel : Nat) → (items : Array Value) → Act (Array Value)
  | 0, _ => throw .exhausted
  | fuel + 1, items => do
    match ← m.next a with
    | none => return items
    | some v => drainFrom m a fuel (items.push v)

def drain (m : Machine) (a : Addr) : Act (Array Value) := drainFrom m a m.fuel #[]

/-- All items of a value. -/
def itemsOf (m : Machine) (v : Value) : Act (Array Value) := do drain m (← Act.iterate v)

/-- At most `count` items of an iterator. -/
def takeItems (m : Machine) (a : Addr) : (count : Nat) → Act (List Value)
  | 0 => return []
  | count + 1 => do
    match ← m.next a with
    | none => return []
    | some v => return v :: (← takeItems m a count)

/-- One item of each of several iterators, or none if one of them has ended. -/
def nextOfAll (m : Machine) : List Addr → Act (Option (List Value))
  | [] => return some []
  | a :: rest => do
    match ← m.next a with
    | none => return none
    | some v =>
      match ← nextOfAll m rest with
      | none => return none
      | some vs => return some (v :: vs)

/-- The next item of an iterator that is no comprehension, after which it is left as told. -/
def Iterator.step (m : Machine) (it : Iterator) : Act (Option (Value × Iterator)) := do
  match it with
  | .list source position =>
    match ← Act.object source with
    | .list items =>
      match items[position]? with
      | some v => return some (v, .list source (position + 1))
      | none => return none
    | _ => return none
  | .tuple [] => return none
  | .tuple (v :: rest) => return some (v, .tuple rest)
  | .text _ [] => return none
  | .text ascii (c :: rest) => return some (.str (String.singleton c), .text ascii rest)
  | .entries part source size position =>
    match ← Act.object source with
    | .dict found =>
      if found.size != size then Act.fail .runtime "dictionary changed size during iteration"
      match found[position]? with
      | some entry => return some (part.of entry, .entries part source size (position + 1))
      | none => return none
    | _ => return none
  | .set rest source size =>
    match ← Act.object source with
    | .set members =>
      if members.size != size then Act.fail .runtime "Set changed size during iteration"
      match rest with
      | v :: rest => return some (v, .set rest source size)
      | [] => return none
    | _ => return none
  | .range _ _ 0 => return none
  | .range start step (left + 1) => return some (.int start, .range (start + step) step left)
  | .enumerate inner count =>
    match ← m.next inner with
    | some v => return some (.tuple [.int count, v], .enumerate inner (count + 1))
    | none => return none
  | .zip [] => return none
  | .zip inners =>
    match ← nextOfAll m inners with
    | some vs => return some (.tuple vs, .zip inners)
    | none => return none
  | .generator _ => return none

def Iterator.ended : Iterator → Iterator
  | .text ascii _ => .text ascii []
  | .entries part source size position => .entries part source size position
  | .range start step _ => .range start step 0
  | .enumerate inner count => .enumerate inner count
  | .zip inners => .zip inners
  | .generator g => .generator { g with cursors := [] }
  | .set _ source size => .set [] source size
  | .list _ _ => .tuple []
  | .tuple _ => .tuple []

end Workflow.Script
