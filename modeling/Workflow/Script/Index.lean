import Workflow.Script.Act

/-! Subscripts and slices. -/

namespace Workflow.Script

/-- Where a slice begins and how many items it takes, in steps that may go backward. -/
structure Span where
  start : Int
  step : Int
  count : Nat

namespace Span

/-- The positions of a span, in the order in which it takes them. -/
def positions (s : Span) : List Nat :=
  (List.range s.count).map (fun (i : Nat) => (s.start + s.step * (i : Int)).toNat)

/-- An end of a slice moved into the row, counted from the end of it when it is negative. -/
def clamp (length low high : Int) (i : Int) : Int :=
  let i := if i < 0 then i + length else i
  max low (min high i)

def ofBounds (length : Nat) (lower upper : Option Int) (step : Int) : Span :=
  let n : Int := length
  if step > 0 then
    let start := (lower.map (clamp n 0 n)).getD 0
    let stop := (upper.map (clamp n 0 n)).getD n
    ⟨start, step, rangeLength start stop step⟩
  else
    let start := (lower.map (clamp n (-1) (n - 1))).getD (n - 1)
    let stop := (upper.map (clamp n (-1) (n - 1))).getD (-1)
    ⟨start, step, rangeLength start stop step⟩

def pick (s : Span) (items : Array α) : Array α :=
  (s.positions.filterMap (fun i => items[i]?)).toArray

end Span

/-- The position that an index means, counted from the end when it is negative. -/
def positionOf? (length : Nat) (i : Int) : Option Nat :=
  let i := if i < 0 then i + length else i
  if 0 ≤ i && i < length then some i.toNat else none

namespace Act

def bound? : Value → Act (Option Int)
  | .nothing => return none
  | v =>
    match v.int? with
    | some n => return some n
    | none => typeError "slice indices must be integers or None or have an __index__ method"

def span (length : Nat) (lower upper step : Value) : Act Span := do
  let step := (← bound? step).getD 1
  if step == 0 then valueError "slice step cannot be zero"
  let lower ← bound? lower
  let upper ← bound? upper
  return .ofBounds length lower upper step

/-- A position in a row of some kind, which a refusal names. -/
def position (row : String) (length : Nat) (index : Value) (out : String) : Act Nat := do
  match index.int? with
  | some i =>
    match positionOf? length i with
    | some p => return p
    | none => fail .index out
  | none => typeError s!"{row} indices must be integers or slices, not {← typeName index}"

def subscript (v index : Value) : Act Value := do
  match v, index with
  | .str s, .slice lower upper step =>
    let cs := s.toList.toArray
    return .str (String.ofList ((← span cs.size lower upper step).pick cs).toList)
  | .str s, index =>
    let cs := s.toList.toArray
    match index.int? with
    | some i =>
      match positionOf? cs.size i with
      | some p => return .str (String.ofList ((cs[p]?).toList))
      | none => fail .index "string index out of range"
    | none => typeError s!"string indices must be integers, not '{← typeName index}'"
  | .tuple items, .slice lower upper step =>
    return .tuple ((← span items.length lower upper step).pick items.toArray).toList
  | .tuple items, index =>
    let p ← position "tuple" items.length index "tuple index out of range"
    return (items[p]?).getD .nothing
  | .range start stop step, .slice lower upper by_ =>
    let s ← span (rangeLength start stop step) lower upper by_
    return .range (start + step * s.start) (start + step * (s.start + s.step * s.count))
      (step * s.step)
  | .range start stop step, index =>
    let p ← position "range" (rangeLength start stop step) index "range object index out of range"
    return .int (start + step * p)
  | .ref a, index =>
    match ← object a, index with
    | .list items, .slice lower upper step =>
      newList ((← span items.size lower upper step).pick items)
    | .list items, index =>
      let p ← position "list" items.size index "list index out of range"
      return (items[p]?).getD .nothing
    | .dict entries, index =>
      checkKey index
      match Entries.get? entries index with
      | some found => return found
      | none => failWith .key [index]
    | _, _ => typeError s!"'{← typeName v}' object is not subscriptable"
  | .type c, _ => typeError s!"type '{c.name}' is not subscriptable"
  | v, _ => typeError s!"'{← typeName v}' object is not subscriptable"

/-- The items of a row with a span of it replaced. A span with a step keeps its length. -/
def replaceSpan (items new : Array Value) (s : Span) : Act (Array Value) := do
  if s.step == 1 then
    let start := s.start.toNat
    let stop := start + s.count
    return items.extract 0 start ++ new ++ items.extract stop items.size
  else if new.size != s.count then
    valueError s!"attempt to assign sequence of size {new.size} to extended slice of size {s.count}"
  else
    return (s.positions.zip new.toList).foldl (fun all (p, v) => all.setIfInBounds p v) items

/-- Assignment to a subscript. The items of a new value are given for a slice. -/
def setSubscript (v index new : Value) (newItems : (stepped : Bool) → Act (Array Value)) : Act Unit := do
  match v with
  | .ref a =>
    match ← object a, index with
    | .list items, .slice lower upper step =>
      let s ← span items.size lower upper step
      write a (.list (← replaceSpan items (← newItems (s.step != 1)) s))
    | .list items, index =>
      match index.int? with
      | some i =>
        match positionOf? items.size i with
        | some p => write a (.list (items.setIfInBounds p new))
        | none => fail .index "list assignment index out of range"
      | none => typeError s!"list indices must be integers or slices, not {← typeName index}"
    | .dict entries, index =>
      checkKey index
      write a (.dict (Entries.insert entries index new))
    | _, _ => typeError s!"'{← typeName v}' object does not support item assignment"
  | v => typeError s!"'{← typeName v}' object does not support item assignment"

def deleteSubscript (v index : Value) : Act Unit := do
  match v with
  | .ref a =>
    match ← object a, index with
    | .list items, .slice lower upper step =>
      let gone := (← span items.size lower upper step).positions
      let kept := (items.toList.zipIdx).filter (fun (_, i) => !gone.contains i)
      write a (.list (kept.map (·.1)).toArray)
    | .list items, index =>
      match index.int? with
      | some i =>
        match positionOf? items.size i with
        | some p => write a (.list (items.eraseIdxIfInBounds p))
        | none => fail .index "list assignment index out of range"
      | none => typeError s!"list indices must be integers or slices, not {← typeName index}"
    | .dict entries, index =>
      checkKey index
      if (Entries.get? entries index).isNone then failWith .key [index]
      write a (.dict (Entries.erase entries index))
    | .set _, _ => typeError s!"'{← typeName v}' object doesn't support item deletion"
    | _, _ => typeError s!"'{← typeName v}' object does not support item deletion"
  | .str _ => typeError s!"'{← typeName v}' object doesn't support item deletion"
  | .tuple _ => typeError s!"'{← typeName v}' object doesn't support item deletion"
  | .range _ _ _ => typeError s!"'{← typeName v}' object doesn't support item deletion"
  | v => typeError s!"'{← typeName v}' object does not support item deletion"

end Act

end Workflow.Script
