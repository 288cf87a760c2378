import Workflow.Script.Scope
import Workflow.Script.Operator

/-! Assignment to targets, and comprehensions as iterators that run their clauses. -/

namespace Workflow.Script

namespace Act

/-- The items that fill `count` targets exactly. -/
def unpackExactly (m : Machine) (a : Addr) (count : Nat) : Act (List Value) := do
  let items ← takeItems m a count
  if items.length < count then
    valueError s!"not enough values to unpack (expected {count}, got {items.length})"
  match ← m.next a with
  | some _ => valueError s!"too many values to unpack (expected {count})"
  | none => return items

/-- The items that fill targets of which the one at `place` is starred and takes what is left over. -/
def unpackAround (m : Machine) (a : Addr) (place count : Nat) : Act (List Value) := do
  let items := (← drain m a).toList
  if items.length < count - 1 then
    valueError s!"not enough values to unpack (expected at least {count - 1}, got {items.length})"
  let taken := items.length - (count - 1)
  let middle ← newList ((items.drop place).take taken).toArray
  return items.take place ++ [middle] ++ items.drop (place + taken)

def unpack (m : Machine) (targets : List Expr) (v : Value) : Act (List Value) := do
  let a ← match ← iterate? v with
    | some a => pure a
    | none => typeError s!"cannot unpack non-iterable {← typeName v} object"
  match targets.findIdx? (fun
    | .starred _ => true
    | _ => false) with
  | some place => unpackAround m a place targets.length
  | none => unpackExactly m a targets.length

end Act

def sliceItems (m : Machine) (v : Value) (stepped : Bool) : Act (Array Value) := do
  match ← Act.iterate? v with
  | some a => drain m a
  | none =>
    Act.typeError
      (if stepped then "must assign iterable to extended slice" else "can only assign an iterable")

/-- Assignment of a value to a target, whose depth is bounded. -/
def assign (m : Machine) (scope : Addr) : (depth : Nat) → Expr → Value → Act Unit
  | 0, _, _ => throw .exhausted
  | depth + 1, target, v => do
    match target with
    | .name id => Act.bindName scope id v
    | .starred item => assign m scope depth item v
    | .tuple items => assignAll (assign m scope depth) items (← Act.unpack m items v)
    | .list items => assignAll (assign m scope depth) items (← Act.unpack m items v)
    | .attribute object name => do m.access.assign (← m.eval scope object) name v
    | .subscript object index => do
      let row ← m.eval scope object
      let place ← m.eval scope index
      Act.setSubscript row place v (sliceItems m v)
    | _ => Act.fail .grammar "cannot assign"
where
  assignAll (one : Expr → Value → Act Unit) : List Expr → List Value → Act Unit
    | target :: targets, v :: values => do
      one target v
      assignAll one targets values
    | _, _ => return ()

/-- Targets nest no deeper than this. -/
def targetDepth : Nat := 250

def Clause.target : Clause → Expr
  | .mk target _ _ => target

def Clause.source : Clause → Expr
  | .mk _ source _ => source

def Clause.conditions : Clause → List Expr
  | .mk _ _ conditions => conditions

def allHold (m : Machine) (scope : Addr) : List Expr → Act Bool
  | [] => return true
  | e :: rest => do
    if ← Act.truth (← m.eval scope e) then allHold m scope rest else return false

/-- Runs the clauses of a comprehension up to its next element, and gives the iterators that are then
under way; none at its end. -/
def advance (m : Machine) (g : Generator) : (fuel : Nat) → (cursors : List Addr) →
    Act (Option (List Addr))
  | 0, _ => throw .exhausted
  | _, [] => return none
  | fuel + 1, top :: below => do
    match g.clauses[below.length]?, ← m.next top with
    | some clause, some v =>
      assign m g.frame targetDepth clause.target v
      if ← allHold m g.frame clause.conditions then
        match g.clauses[below.length + 1]? with
        | some inner =>
          let source ← m.eval g.frame inner.source
          advance m g fuel ((← Act.iterate source) :: top :: below)
        | none => return some (top :: below)
      else advance m g fuel (top :: below)
    | _, _ => advance m g fuel below

def element (m : Machine) (g : Generator) : Act (Value × Value) := do
  let key ← m.eval g.frame g.element
  match g.value with
  | some e => return (key, ← m.eval g.frame e)
  | none => return (key, .nothing)

/-- All elements of a comprehension. Those of a set or a dictionary must be keys. -/
def collect (m : Machine) (g : Generator) (keys : Bool) :
    (fuel : Nat) → (cursors : List Addr) → Entries → Act Entries
  | 0, _, _ => throw .exhausted
  | fuel + 1, cursors, found => do
    match ← advance m g m.fuel cursors with
    | none => return found
    | some cursors =>
      let (key, v) ← element m g
      if keys then Act.checkKey key
      collect m g keys fuel cursors (found.push (key, v))

/-- The next item of an iterator. A comprehension that stops with an error has ended. -/
def nextItem (m : Machine) (a : Addr) : Act (Option Value) := do
  match ← Act.object a with
  | .iterator (.generator g) =>
    Act.write a (.iterator (.generator { g with cursors := [] }))
    match ← advance m g m.fuel g.cursors with
    | none => return none
    | some cursors =>
      let (v, _) ← element m g
      Act.write a (.iterator (.generator { g with cursors }))
      return some v
  | .iterator it =>
    match ← it.step m with
    | some (v, left) =>
      Act.write a (.iterator left)
      return some v
    | none =>
      Act.write a (.iterator it.ended)
      return none
  | _ => return none

/-- A comprehension in a frame of its own. The source of its first clause is evaluated outside. -/
def comprehend (m : Machine) (scope : Addr) (kind : Collection) (elt : Expr) (value : Option Expr)
    (clauses : List Clause) : Act Value := do
  match clauses with
  | [] => Act.fail .grammar "no clause"
  | first :: _ =>
    let start ← Act.iterate (← m.eval scope first.source)
    let declared := clauses.flatMap (fun c => Placement.targetNames c.target.outline)
    let frame ← Act.alloc (.frame { kind := .comprehension, declared, outer := some scope })
    let g : Generator := { frame, element := elt, value, clauses, cursors := [start] }
    match kind with
    | .generator => Act.allocate (.iterator (.generator g))
    | .list =>
      let found ← collect m g false m.fuel [start] #[]
      Act.newList (found.map (·.1))
    | .set =>
      let found ← collect m g true m.fuel [start] #[]
      Act.newSet (Members.ofList (found.map (·.1)).toList)
    | .dict =>
      let found ← collect m g true m.fuel [start] #[]
      Act.newDict (Entries.insertAll #[] found)

end Workflow.Script
