import Workflow.Script.Class
import Workflow.Script.Term
import Workflow.Calendar

/-! Values of scripts. Plain values are held as they are; whatever can change, or has an identity of
its own, is an object on the heap and is held by its address. -/

namespace Workflow.Script

abbrev Addr := Nat

/-- Functions that are no methods. -/
inductive Builtin where
  | abs | all | any | isinstance | len | max | min | round | sorted | sum
  deriving DecidableEq, Repr

namespace Builtin

def names : List (Builtin × String) :=
  [(.abs, "abs"), (.all, "all"), (.any, "any"), (.isinstance, "isinstance"), (.len, "len"),
   (.max, "max"), (.min, "min"), (.round, "round"), (.sorted, "sorted"), (.sum, "sum")]

def name (f : Builtin) : String := ((names.find? (·.1 == f)).map (·.2)).getD ""

end Builtin

inductive Method where
  | upper | lower | title | strip | leftStrip | rightStrip | split | join | replace | startsWith
  | endsWith | find | textCount | isDigit | format
  | append | listPop | listRemove | index | listCount | listCopy | listClear | extend | insert
  | reverse | sort
  | get | keys | values | items | dictCopy | dictUpdate | setDefault | dictPop | dictClear | popItem
  | add | discard | setRemove | setUpdate | setCopy
  | tupleIndex | tupleCount
  deriving DecidableEq, Repr

namespace Method

/-- The methods of each kind of value, with their names. -/
def table : List (Kind × List (Method × String)) :=
  [(.str,
    [(.upper, "upper"), (.lower, "lower"), (.title, "title"), (.strip, "strip"),
     (.leftStrip, "lstrip"), (.rightStrip, "rstrip"), (.split, "split"), (.join, "join"),
     (.replace, "replace"), (.startsWith, "startswith"), (.endsWith, "endswith"), (.find, "find"),
     (.textCount, "count"), (.isDigit, "isdigit"), (.format, "format")]),
   (.list,
    [(.append, "append"), (.listPop, "pop"), (.listRemove, "remove"), (.index, "index"),
     (.listCount, "count"), (.listCopy, "copy"), (.listClear, "clear"), (.extend, "extend"),
     (.insert, "insert"), (.reverse, "reverse"), (.sort, "sort")]),
   (.dict,
    [(.get, "get"), (.keys, "keys"), (.values, "values"), (.items, "items"), (.dictCopy, "copy"),
     (.dictUpdate, "update"), (.setDefault, "setdefault"), (.dictPop, "pop"), (.dictClear, "clear"),
     (.popItem, "popitem")]),
   (.set,
    [(.add, "add"), (.discard, "discard"), (.setRemove, "remove"), (.setUpdate, "update"),
     (.setCopy, "copy")]),
   (.tuple, [(.tupleIndex, "index"), (.tupleCount, "count")])]

def ofName? (kind : Kind) (name : String) : Option Method := do
  let (_, methods) ← table.find? (·.1 == kind)
  let (m, _) ← methods.find? (·.2 == name)
  some m

/-- The kind of value that a method belongs to, and its name. -/
def home (m : Method) : Kind × String :=
  (table.findSome? (fun (kind, methods) =>
    (methods.find? (·.1 == m)).map (fun (_, name) => (kind, name)))).getD (.none, "")

end Method

inductive Value where
  | nothing
  | ellipsis
  | bool (b : Bool)
  | int (n : Int)
  | float (x : Float)
  | str (s : String)
  | tuple (items : List Value)
  | range (start stop step : Int)
  | slice (lower upper step : Value)
  | date (d : Date)
  | moment (m : Moment)
  | type (c : Class)
  | builtin (f : Builtin)
  /-- A method of a kind of value, which takes the value as its first argument. -/
  | method (m : Method)
  | bound (m : Method) (receiver : Value)
  | ref (a : Addr)
  deriving Repr

instance : Inhabited Value := ⟨.nothing⟩

/-- How many numbers a range holds. -/
def rangeLength (start stop step : Int) : Nat :=
  if step > 0 then ((stop - start + step - 1) / step).toNat
  else ((start - stop - step - 1) / (-step)).toNat

/-- What a name can be bound to inside: a script, the body of a function or a comprehension. -/
inductive FrameKind where
  | module | function | comprehension
  deriving DecidableEq, Repr

/-- Names and their values. The frame of a script also knows the builtins; any other lies within an
outer frame and declares which names are its own. -/
structure Frame where
  kind : FrameKind
  declared : List String := []
  values : List (String × Value) := []
  builtins : List (String × Value) := []
  outer : Option Addr := none

inductive Body where
  | expression (e : Expr)
  | block (stmts : List Stmt)

structure Function where
  name : String
  params : Params
  /-- Values for the last of the positional parameters. -/
  defaults : List Value
  keywordDefaults : List (Option Value)
  body : Body
  scope : Addr

/-- A comprehension under way: the iterators of the clauses that it has entered, innermost first. With
none it has ended. -/
structure Generator where
  frame : Addr
  element : Expr
  value : Option Expr
  clauses : List Clause
  cursors : List Addr

/-- Which part of its entries a view of a dictionary shows. -/
inductive Part where
  | keys | values | items
  deriving DecidableEq, Repr

inductive Iterator where
  | list (source : Addr) (position : Nat)
  | tuple (rest : List Value)
  | text (ascii : Bool) (rest : List Char)
  | entries (part : Part) (dict : Addr) (size position : Nat)
  | set (rest : List Value) (source : Addr) (size : Nat)
  | range (start step : Int) (left : Nat)
  | enumerate (inner : Addr) (count : Int)
  | zip (inners : List Addr)
  | generator (g : Generator)

/-- Objects that are known by their fields. -/
inductive RecordKind where
  | namespace | inputRequired | stepRef | subflowBlock | loopBlock | controlMarker | flowState
  deriving DecidableEq, Repr

def RecordKind.kind : RecordKind → Kind
  | .namespace => .namespace
  | .inputRequired => .inputRequired
  | .stepRef => .stepRef
  | .subflowBlock => .subflowBlock
  | .loopBlock => .loopBlock
  | .controlMarker => .controlMarker
  | .flowState => .flowState

/-- A callable given from outside: a source evaluated on the arguments of the call. -/
structure Supplied where
  source : String
  /-- Whether a call only gives something to wait for. -/
  deferred : Bool
  name : String

inductive Object where
  | list (items : Array Value)
  | dict (entries : Array (Value × Value))
  | set (items : Array Value)
  | record (kind : RecordKind) (fields : Array (String × Value))
  | error (category : ErrorClass) (args : List Value) (fields : Array (String × Value))
  | function (f : Function)
  | frame (f : Frame)
  | supplied (f : Supplied)
  | awaitable (f : Supplied) (args : List Value)
  | iterator (it : Iterator)
  | view (part : Part) (dict : Addr)

instance : Inhabited Object := ⟨.list #[]⟩

/-- Every object at its address, and the errors that are being handled, innermost first. -/
structure Heap where
  objects : Array Object := #[]
  handling : List Value := []

instance : Inhabited Heap := ⟨{}⟩

namespace Heap

def object (h : Heap) (a : Addr) : Object := h.objects[a]?.getD (.list #[])

def alloc (h : Heap) (o : Object) : Addr × Heap := (h.objects.size, { h with objects := h.objects.push o })

def write (h : Heap) (a : Addr) (o : Object) : Heap :=
  { h with objects := h.objects.setIfInBounds a o }

end Heap

def Part.kind : Part → Kind
  | .keys => .keys
  | .values => .values
  | .items => .items

def Iterator.kind : Iterator → Kind
  | .list _ _ => .listIterator
  | .tuple _ => .tupleIterator
  | .text ascii _ => if ascii then .asciiTextIterator else .textIterator
  | .entries .keys _ _ _ => .keyIterator
  | .entries .values _ _ _ => .valueIterator
  | .entries .items _ _ _ => .itemIterator
  | .set _ _ _ => .setIterator
  | .range _ _ _ => .rangeIterator
  | .enumerate _ _ => .enumerate
  | .zip _ => .zip
  | .generator _ => .generator

def Object.classOf : Object → Class
  | .list _ => .kind .list
  | .dict _ => .kind .dict
  | .set _ => .kind .set
  | .record k _ => .kind k.kind
  | .error c _ _ => .error c
  | .function _ => .kind .function
  | .frame _ => .kind .namespace
  | .supplied _ => .kind .function
  | .awaitable _ _ => .kind .coroutine
  | .iterator it => .kind it.kind
  | .view p _ => .kind p.kind

def Value.classOf (h : Heap) : Value → Class
  | .nothing => .kind .none
  | .ellipsis => .kind .ellipsis
  | .bool _ => .kind .bool
  | .int _ => .kind .int
  | .float _ => .kind .float
  | .str _ => .kind .str
  | .tuple _ => .kind .tuple
  | .range _ _ _ => .kind .range
  | .slice _ _ _ => .kind .slice
  | .date _ => .kind .date
  | .moment _ => .kind .moment
  | .type _ => .kind .type
  | .builtin _ => .kind .builtinFunction
  | .method _ => .kind .methodDescriptor
  | .bound _ _ => .kind .builtinFunction
  | .ref a => (h.object a).classOf

def Value.className (h : Heap) (v : Value) : String := (v.classOf h).name

/-- The name of a value's class, as refusals of operators and attributes give it. -/
def Value.typeName (h : Heap) (v : Value) : String := (v.classOf h).fullName

end Workflow.Script
