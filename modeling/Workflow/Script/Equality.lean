import Workflow.Script.Key

/-! Equality and order of values. Both look through the heap, so they carry a bound on the depth. -/

namespace Workflow.Script

/-- Values nested deeper than this are neither compared nor written. -/
def depthLimit : Nat := 900

/-- Whether two rows agree item by item under a test that may give up. -/
def allAgree? (test : α → β → Option Bool) : List α → List β → Option Bool
  | [], [] => some true
  | a :: as, b :: bs =>
    match test a b with
    | some true => allAgree? test as bs
    | answer => answer
  | _, _ => some false

/-- Whether all items pass a test that may give up. -/
def allPass? (test : α → Option Bool) : List α → Option Bool
  | [] => some true
  | a :: rest =>
    match test a with
    | some true => allPass? test rest
    | answer => answer

def RecordKind.fieldNames : RecordKind → List String
  | .namespace => []
  | .inputRequired => ["descriptor", "expires", "errors"]
  | .stepRef => ["id", "input", "condition"]
  | .subflowBlock => ["steps", "condition"]
  | .loopBlock => ["while_", "steps", "condition"]
  | .controlMarker => ["kind", "condition"]
  | .flowState => ["context", "indexes"]

namespace Object

/-- Equality of two objects, given equality of what they hold. -/
def equal? (h : Heap) (test : Value → Value → Option Bool) : Object → Object → Option Bool
  | .list xs, .list ys =>
    if xs.size == ys.size then allAgree? test xs.toList ys.toList else some false
  | .dict xs, .dict ys =>
    if xs.size == ys.size then
      allPass? (fun (key, v) =>
        match Entries.get? ys key with
        | some w => test v w
        | none => some false) xs.toList
    else some false
  | .set xs, .set ys => some (xs.size == ys.size && xs.all (Members.contains ys))
  | .record .namespace xs, .record .namespace ys =>
    if xs.size == ys.size then
      allPass? (fun (name, v) =>
        match Fields.get? ys name with
        | some w => test v w
        | none => some false) xs.toList
    else some false
  | .record k xs, .record l ys =>
    if k == l then
      allAgree? test (k.fieldNames.map (fun n => (Fields.get? xs n).getD .nothing))
        (k.fieldNames.map (fun n => (Fields.get? ys n).getD .nothing))
    else some false
  | .view .keys a, .view .keys b =>
    match h.object a, h.object b with
    | .dict xs, .dict ys =>
      some (xs.size == ys.size && xs.all (fun (key, _) => (Entries.get? ys key).isSome))
    | _, _ => some false
  | _, _ => some false

end Object

/-- Whether two values are equal, or none when they are nested too deeply. -/
def Value.equal? (h : Heap) : (depth : Nat) → Value → Value → Option Bool
  | 0, _, _ => none
  | depth + 1, v, w =>
    let test := fun a b => if a.same b then some true else Value.equal? h depth a b
    match v, w with
    | .tuple xs, .tuple ys =>
      if xs.length == ys.length then allAgree? test xs ys else some false
    | .range a b c, .range d e f => some (rangesEqual a b c d e f)
    | .float x, .float y => some (x == y)
    | .ref a, .ref b =>
      if a == b then some true else Object.equal? h test (h.object a) (h.object b)
    | v, w =>
      match v.numbersEqual? w with
      | some answer => some answer
      | none => some (v.same w)

/-- The four comparisons by order. -/
inductive OrderTest where
  | less | lessEqual | greater | greaterEqual
  deriving DecidableEq, Repr

namespace OrderTest

def accepts : OrderTest → Ordering → Bool
  | .less, o => o == .lt
  | .lessEqual, o => o != .gt
  | .greater, o => o == .gt
  | .greaterEqual, o => o != .lt

def sign : OrderTest → String
  | .less => "<"
  | .lessEqual => "<="
  | .greater => ">"
  | .greaterEqual => ">="

end OrderTest

/-- Why two values have no order. -/
inductive OrderFault where
  | unordered (test : OrderTest) (left right : String)
  | tooDeep

def compareChars : List Char → List Char → Ordering
  | [], [] => .eq
  | [], _ => .lt
  | _, [] => .gt
  | c :: cs, d :: ds => if c == d then compareChars cs ds else compare c.toNat d.toNat

/-- Rows are ordered by their first items that differ, and by length when one starts the other. -/
def rowsOrdered (equal : Value → Value → Option Bool)
    (ordered : Value → Value → Except OrderFault Bool) (test : OrderTest) :
    List Value → List Value → Except OrderFault Bool
  | [], [] => .ok (test.accepts .eq)
  | [], _ => .ok (test.accepts .lt)
  | _, [] => .ok (test.accepts .gt)
  | v :: vs, w :: ws =>
    match equal v w with
    | none => .error .tooDeep
    | some true => rowsOrdered equal ordered test vs ws
    | some false => ordered v w

/-- A comparison of sets is one of inclusion. -/
def setsOrdered (test : OrderTest) (xs ys : Array Value) : Bool :=
  let within (a b : Array Value) := a.all (Members.contains b)
  match test with
  | .less => xs.size < ys.size && within xs ys
  | .lessEqual => within xs ys
  | .greater => ys.size < xs.size && within ys xs
  | .greaterEqual => within ys xs

/-- The order of two numbers, or none if one of them is not a number. -/
def Value.compareNumbers? : Value → Value → Option (Option Ordering)
  | .float x, .float y => some (Number.compareFloat? x y)
  | .float x, w => w.int?.map (fun m => (Number.compareIntFloat? m x).map Ordering.swap)
  | v, .float y => v.int?.map (fun n => Number.compareIntFloat? n y)
  | v, w => do
    let n ← v.int?
    let m ← w.int?
    some (some (compare n m))

def dateOrder (d e : Date) : Ordering :=
  (compare d.year e.year).then ((compare d.month e.month).then (compare d.day e.day))

def Value.ordered (h : Heap) (test : OrderTest) :
    (depth : Nat) → Value → Value → Except OrderFault Bool
  | 0, _, _ => .error .tooDeep
  | depth + 1, v, w =>
    let equal := fun a b => if a.same b then some true else Value.equal? h depth a b
    let rows := rowsOrdered equal (Value.ordered h test depth) test
    let refused := OrderFault.unordered test (v.typeName h) (w.typeName h)
    match v, w with
    | .str s, .str t => .ok (test.accepts (compareChars s.toList t.toList))
    | .tuple xs, .tuple ys => rows xs ys
    | .date d, .date e => .ok (test.accepts (dateOrder d e))
    | .ref a, .ref b =>
      match h.object a, h.object b with
      | .list xs, .list ys => rows xs.toList ys.toList
      | .set xs, .set ys => .ok (setsOrdered test xs ys)
      | _, _ => .error refused
    | v, w =>
      match v.compareNumbers? w with
      | some order => .ok (order.any test.accepts)
      | none => .error refused

end Workflow.Script
