import Workflow.Script.Render

/-! What scripts do to the heap. An act gives a value, or stops with an error of the script or because
its fuel is spent. -/

namespace Workflow.Script

inductive Stop where
  | raised (error : Value)
  | exhausted

abbrev Act := EStateM Stop Heap

namespace Act

def object (a : Addr) : Act Object := fun h => .ok (h.object a) h

def alloc (o : Object) : Act Addr := fun h =>
  let (a, h) := h.alloc o
  .ok a h

def write (a : Addr) (o : Object) : Act Unit := fun h => .ok () (h.write a o)

def allocate (o : Object) : Act Value := Value.ref <$> alloc o

def newList (items : Array Value) : Act Value := allocate (.list items)

def newDict (entries : Entries) : Act Value := allocate (.dict entries)

def newSet (members : Array Value) : Act Value := allocate (.set members)

def raise (error : Value) : Act α := throw (.raised error)

/-- Stops with a new error. -/
def failWith (c : ErrorClass) (args : List Value) : Act α := do
  raise (← allocate (.error c args #[]))

def fail (c : ErrorClass) (message : String) : Act α := failWith c [.str message]

def typeError (message : String) : Act α := fail .type message

def valueError (message : String) : Act α := fail .value message

def typeName (v : Value) : Act String := fun h => .ok (v.typeName h) h

def rendered (write : Heap → Except RenderFault String) : Act String := do
  match write (← get) with
  | .ok s => return s
  | .error .tooDeep =>
    fail .recursion "maximum recursion depth exceeded while getting the repr of an object"
  | .error .longNumber =>
    valueError Number.unwritable

/-- The written form of a value, as a script would write it. -/
def quoted (v : Value) : Act String := rendered v.quoted

def plain (v : Value) : Act String := rendered v.plain

def equal (v w : Value) : Act Bool := do
  match v.equal? (← get) depthLimit w with
  | some answer => return answer
  | none => fail .recursion "maximum recursion depth exceeded in comparison"

/-- Whether an item of a collection is the value that is looked for. -/
def matching (v w : Value) : Act Bool := if v.same w then return true else equal v w

def ordered (test : OrderTest) (v w : Value) : Act Bool := do
  match v.ordered (← get) test depthLimit w with
  | .ok answer => return answer
  | .error .tooDeep => fail .recursion "maximum recursion depth exceeded in comparison"
  | .error (.unordered test left right) =>
    typeError s!"'{test.sign}' not supported between instances of '{left}' and '{right}'"

/-- Refuses a value that cannot be a key. -/
def checkKey (v : Value) : Act Unit := do
  match v.unhashable? (← get) with
  | some name => typeError s!"unhashable type: '{name}'"
  | none => return ()

def position? (v : Value) : (items : List Value) → (start : Nat) → Act (Option Nat)
  | [], _ => return none
  | w :: rest, i => do if ← matching w v then return some i else position? v rest (i + 1)

def countOf (v : Value) : (items : List Value) → (count : Nat) → Act Nat
  | [], n => return n
  | w :: rest, n => do countOf v rest (if ← matching w v then n + 1 else n)

/-- Runs an act and then gives back what it stopped with, if it stopped. -/
def attempt (act : Act α) : Act (Except Stop α) := fun h =>
  match act h with
  | .ok v h => .ok (.ok v) h
  | .error stop h => .ok (.error stop) h

def ofAttempt : Except Stop α → Act α
  | .ok v => return v
  | .error stop => throw stop

end Act

/-- Whether a value counts as true in a test. -/
def Value.truth (h : Heap) : Value → Bool
  | .nothing => false
  | .bool b => b
  | .int n => n != 0
  | .float x => x != 0.0
  | .str s => !s.isEmpty
  | .tuple items => !items.isEmpty
  | .range start stop step => rangeLength start stop step != 0
  | .ref a =>
    match h.object a with
    | .list items => !items.isEmpty
    | .dict entries => !entries.isEmpty
    | .set members => !members.isEmpty
    | .view _ source =>
      match h.object source with
      | .dict entries => !entries.isEmpty
      | _ => false
    | _ => true
  | _ => true

def Act.truth (v : Value) : Act Bool := fun h => .ok (v.truth h) h

/-- How a row of statements ends. -/
inductive Flow where
  | onward
  | leave
  | again
  | result (v : Value)

/-- How the attributes of values are read and changed by name. -/
structure Access where
  read : (object : Value) → (name : String) → Act Value
  assign : (object : Value) → (name : String) → (new : Value) → Act Unit
  delete : (object : Value) → (name : String) → Act Unit
  /-- The attribute that a replacement field of a template goes on to. -/
  field : (object : Value) → (name : String) → Act Value

/-- The parts of the interpreter that depend on one another, each with less fuel than the whole.
`calls` tells how many more calls may be nested. -/
structure Machine where
  access : Access
  fuel : Nat
  calls : Nat
  eval : (scope : Addr) → Expr → Act Value
  exec : (scope : Addr) → List Stmt → Act Flow
  call : (function : Value) → (args : List Value) → (keywords : List (String × Value)) → Act Value
  /-- The next item of an iterator. -/
  next : (iterator : Addr) → Act (Option Value)

end Workflow.Script
