import Workflow.Script.Act

/-! Attributes of values. -/

namespace Workflow.Script

def Value.methodKind? (h : Heap) (v : Value) : Option Kind :=
  match v.classOf h with
  | .kind k => some k
  | .error _ => none

def dateAttribute? (d : Date) (name : String) : Option Value :=
  if name == "year" then some (.int d.year)
  else if name == "month" then some (.int d.month)
  else if name == "day" then some (.int d.day)
  else none

def momentAttribute? (m : Moment) (name : String) : Option Value :=
  if name == "hour" then some (.int m.hour)
  else if name == "minute" then some (.int m.minute)
  else if name == "second" then some (.int m.second)
  else if name == "microsecond" then some (.int m.micros)
  else dateAttribute? m.date name

/-- Attributes that a class gives to itself and to its instances. -/
def Class.attribute? (c : Class) (name : String) : Option Value :=
  match c with
  | .kind .inputRequired =>
    if name == "expires" || name == "errors" then some .nothing else none
  | .kind k => (Method.ofName? k name).map .method
  | .error _ => none

/-- The written name of something that can be called. -/
def Value.calledName? (h : Heap) : Value → Option String
  | .type c => some c.name
  | .builtin f => some f.name
  | .method m => some m.home.2
  | .bound m _ => some m.home.2
  | .ref a =>
    match h.object a with
    | .function f => some f.name
    | .supplied f => some f.name
    | _ => none
  | _ => none

def Object.attribute? (name : String) : Object → Option Value
  | .record _ fields => Fields.get? fields name
  | .error _ args fields =>
    if name == "args" then some (.tuple args) else Fields.get? fields name
  | _ => none

/-- An attribute that needs no new object. -/
def Value.attribute? (h : Heap) (v : Value) (name : String) : Option Value :=
  let own : Option Value := match v with
    | .type c => c.attribute? name
    | .ref a => (h.object a).attribute? name
    | .date d => dateAttribute? d name
    | .moment m => momentAttribute? m name
    | .range start stop step =>
      if name == "start" then some (.int start)
      else if name == "stop" then some (.int stop)
      else if name == "step" then some (.int step)
      else none
    | _ => none
  let bound : Option Value := match v with
    | .type _ => none
    | v => do
      let k ← v.methodKind? h
      let m ← Method.ofName? k name
      some (.bound m v)
  let special : Option Value :=
    if name == "__class__" then some (.type (v.classOf h))
    else if name == "__name__" || name == "__qualname__" then (v.calledName? h).map .str
    else none
  own.or (bound.or special)

namespace Act

def noAttribute (v : Value) (name : String) : Act α := do
  match v with
  | .type c => fail .attribute s!"type object '{c.name}' has no attribute '{name}'"
  | v => fail .attribute s!"'{← typeName v}' object has no attribute '{name}'"

def getAttribute (v : Value) (name : String) : Act Value := do
  match v.attribute? (← get) name with
  | some found => return found
  | none =>
    match v with
    | .ref a =>
      match ← object a with
      | .record _ fields =>
        if name == "__dict__" then newDict (fields.map (fun (n, w) => (.str n, w)))
        else noAttribute v name
      | _ => noAttribute v name
    | _ => noAttribute v name

def setAttribute (v : Value) (name : String) (new : Value) : Act Unit := do
  match v with
  | .ref a =>
    match ← object a with
    | .record k fields => write a (.record k (Fields.set fields name new))
    | .error c args fields =>
      if name == "args" then noAttribute v name
      else write a (.error c args (Fields.set fields name new))
    | _ => noAttribute v name
  | .type c => typeError s!"cannot set '{name}' attribute of immutable type '{c.name}'"
  | v => noAttribute v name

def deleteAttribute (v : Value) (name : String) : Act Unit := do
  match v with
  | .ref a =>
    match ← object a with
    | .record k fields =>
      if (Fields.get? fields name).isNone then noAttribute v name
      else write a (.record k (Fields.erase fields name))
    | .error c args fields =>
      if (Fields.get? fields name).isNone then noAttribute v name
      else write a (.error c args (Fields.erase fields name))
    | _ => noAttribute v name
  | v => noAttribute v name

end Act

/-- Every attribute that a value has may be used, under any name. -/
def Access.standard : Access :=
  { read := Act.getAttribute
    assign := Act.setAttribute
    delete := Act.deleteAttribute
    field := Act.getAttribute }

end Workflow.Script
