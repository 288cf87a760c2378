import Workflow.Script.Value
import Workflow.Number.Double

/-! Values as keys: which values may be keys, when two of them are one key, and tables of entries in
the order in which their keys first came. -/

namespace Workflow.Script

/-- A whole number, or a truth value counted as one. -/
def Value.int? : Value → Option Int
  | .int n => some n
  | .bool b => some (if b then 1 else 0)
  | _ => none

/-- Equality of numbers of all kinds; none when one of the values is no number. -/
def Value.numbersEqual? : Value → Value → Option Bool
  | .float x, .float y => some (x == y)
  | .float x, v => v.int?.map (fun n => Number.compareIntFloat? n x == some .eq)
  | v, .float x => v.int?.map (fun n => Number.compareIntFloat? n x == some .eq)
  | v, w => do
    let n ← v.int?
    let m ← w.int?
    some (n == m)

mutual

/-- Whether two values are one and the same. -/
def Value.same : Value → Value → Bool
  | .nothing, .nothing => true
  | .ellipsis, .ellipsis => true
  | .bool b, .bool c => b == c
  | .int n, .int m => n == m
  | .float x, .float y => x.toBits == y.toBits
  | .str s, .str t => s == t
  | .tuple xs, .tuple ys => Value.allSame xs ys
  | .range a b c, .range d e f => a == d && b == e && c == f
  | .slice a b c, .slice d e f => Value.same a d && Value.same b e && Value.same c f
  | .date d, .date e => d == e
  | .moment d, .moment e => d == e
  | .type c, .type d => c == d
  | .builtin f, .builtin g => f == g
  | .method m, .method n => m == n
  | .bound m v, .bound n w => m == n && Value.same v w
  | .ref a, .ref b => a == b
  | _, _ => false

def Value.allSame : List Value → List Value → Bool
  | [], [] => true
  | v :: vs, w :: ws => Value.same v w && Value.allSame vs ws
  | _, _ => false

end

/-- Ranges are equal when they hold the same numbers. -/
def rangesEqual (a b c d e f : Int) : Bool :=
  let n := rangeLength a b c
  n == rangeLength d e f && (n == 0 || (a == d && (n == 1 || c == f)))

mutual

/-- Whether two values count as one key. -/
def Value.sameKey : Value → Value → Bool
  | .tuple xs, .tuple ys => Value.sameKeys xs ys
  | .range a b c, .range d e f => rangesEqual a b c d e f
  | v, w => (v.numbersEqual? w).getD false || v.same w

def Value.sameKeys : List Value → List Value → Bool
  | [], [] => true
  | v :: vs, w :: ws => Value.sameKey v w && Value.sameKeys vs ws
  | _, _ => false

end

/-- The class of an object that is no key, as a refusal names it. -/
def Object.unhashable? : Object → Option String
  | .list _ => some "list"
  | .dict _ => some "dict"
  | .set _ => some "set"
  | .record .namespace _ => some "types.SimpleNamespace"
  | .record kind _ => some kind.kind.name
  | .view .keys _ => some "dict_keys"
  | .view .items _ => some "dict_items"
  | _ => none

mutual

/-- The class of the first part of a value that keeps it from being a key. -/
def Value.unhashable? (h : Heap) : Value → Option String
  | .tuple items => Value.firstUnhashable? h items
  | .slice _ _ _ => some "slice"
  | .bound _ receiver => receiver.unhashable? h
  | .ref a => (h.object a).unhashable?
  | _ => none

def Value.firstUnhashable? (h : Heap) : List Value → Option String
  | [] => none
  | v :: rest => (v.unhashable? h).or (Value.firstUnhashable? h rest)

end

abbrev Entries := Array (Value × Value)

namespace Entries

def position? (entries : Entries) (key : Value) : Option Nat :=
  entries.findIdx? (fun entry => entry.1.sameKey key)

def get? (entries : Entries) (key : Value) : Option Value :=
  (entries.find? (fun entry => entry.1.sameKey key)).map (·.2)

/-- A key that is there keeps its place and its first spelling. -/
def insert (entries : Entries) (key value : Value) : Entries :=
  match position? entries key with
  | some i => entries.modify i (fun entry => (entry.1, value))
  | none => entries.push (key, value)

def erase (entries : Entries) (key : Value) : Entries :=
  match position? entries key with
  | some i => entries.eraseIdxIfInBounds i
  | none => entries

def insertAll (entries more : Entries) : Entries :=
  more.foldl (fun all entry => insert all entry.1 entry.2) entries

/-- The value of a text key. -/
def named? (entries : Entries) (key : String) : Option Value := get? entries (.str key)

end Entries

def Value.entries? (h : Heap) : Value → Option Entries
  | .ref a =>
    match h.object a with
    | .dict entries => some entries
    | _ => none
  | _ => none

def Value.listItems? (h : Heap) : Value → Option (Array Value)
  | .ref a =>
    match h.object a with
    | .list items => some items
    | _ => none
  | _ => none

namespace Members

def contains (members : Array Value) (v : Value) : Bool := members.any (·.sameKey v)

def insert (members : Array Value) (v : Value) : Array Value :=
  if contains members v then members else members.push v

def erase (members : Array Value) (v : Value) : Array Value :=
  members.filter (fun w => !w.sameKey v)

def ofList (values : List Value) : Array Value := values.foldl insert #[]

/-- The order in which a set is walked: natural numbers ascend, and anything else comes in the order in
which it was put in. -/
def walk (members : Array Value) : List Value :=
  if members.all (fun v => v.int?.any (0 ≤ ·)) then
    members.toList.mergeSort (fun v w => v.int?.getD 0 ≤ w.int?.getD 0)
  else members.toList

end Members

/-- Named values in the order in which the names first came. -/
abbrev Fields := Array (String × Value)

namespace Fields

def get? (fields : Fields) (name : String) : Option Value :=
  (fields.find? (·.1 == name)).map (·.2)

def set (fields : Fields) (name : String) (v : Value) : Fields :=
  match fields.findIdx? (·.1 == name) with
  | some i => fields.modify i (fun field => (field.1, v))
  | none => fields.push (name, v)

def erase (fields : Fields) (name : String) : Fields := fields.filter (·.1 != name)

end Fields

end Workflow.Script
