import Workflow.Script.Act
import Workflow.Json.Basic

/-! Plain data as values of scripts and back. -/

namespace Workflow.Script

mutual

/-- A new value that holds some plain data. -/
def ofJson : Json → Act Value
  | .null => return .nothing
  | .bool b => return .bool b
  | .int n => return .int n
  | .float x => return .float x
  | .str s => return .str s
  | .array items => do Act.newList (← ofJsonItems items).toArray
  | .object members => do Act.newDict (← ofJsonMembers members).toArray

def ofJsonItems : List Json → Act (List Value)
  | [] => return []
  | j :: rest => do
    let v ← ofJson j
    return v :: (← ofJsonItems rest)

def ofJsonMembers : List (String × Json) → Act (List (Value × Value))
  | [] => return []
  | (name, j) :: rest => do
    let v ← ofJson j
    return (.str name, v) :: (← ofJsonMembers rest)

end

/-- Why a value is no plain data. -/
inductive DataFault where
  | notData (className : String)
  | notName (className : String)
  | circular
  | longNumber
  | tooDeep
  deriving DecidableEq, Repr

def DataFault.message : DataFault → String
  | .notData c => s!"Object of type {c} is not JSON serializable"
  | .notName c => s!"keys must be str, int, float, bool or None, not {c}"
  | .circular => "Circular reference detected"
  | .longNumber =>
    Number.unwritable
  | .tooDeep => "maximum recursion depth exceeded while encoding a JSON object"

/-- Whether a fault is one of kind rather than of form. -/
def DataFault.isOfKind : DataFault → Bool
  | .notData _ => true
  | .notName _ => true
  | _ => false

/-- Stops with the error for a value that is no plain data. -/
def DataFault.stop : DataFault → Act α
  | .tooDeep => Act.fail .recursion DataFault.tooDeep.message
  | fault =>
    if fault.isOfKind then Act.typeError fault.message else Act.valueError fault.message

def dataInt (n : Int) : Except DataFault Json :=
  if Number.isLong n then .error .longNumber else .ok (.int n)

/-- The name of a member whose key is a scalar. -/
def memberName (h : Heap) : Value → Except DataFault String
  | .str s => .ok s
  | .nothing => .ok "null"
  | .bool b => .ok (if b then "true" else "false")
  | .int n => if Number.isLong n then .error .longNumber else .ok (Number.intText n)
  | .float x =>
    .ok (if x.isNaN then "NaN"
      else if x.isInf then (if x < 0.0 then "-Infinity" else "Infinity")
      else Number.floatText x)
  | v => .error (.notName (v.className h))

/-- A value as plain data, at some depth and inside some objects. `other` tells what becomes of values
that are none. -/
def Value.toJson (h : Heap) (other : Value → Except DataFault Json) :
    (depth : Nat) → (inside : List Addr) → Value → Except DataFault Json
  | 0, _, _ => .error .tooDeep
  | depth + 1, inside, v =>
    match v with
    | .nothing => .ok .null
    | .bool b => .ok (.bool b)
    | .int n => dataInt n
    | .float x => .ok (.float x)
    | .str s => .ok (.str s)
    | .tuple items => do return .array (← items.mapM (Value.toJson h other depth inside))
    | .ref a =>
      if inside.contains a then .error .circular
      else
        match h.object a with
        | .list items => do
          return .array (← items.toList.mapM (Value.toJson h other depth (a :: inside)))
        | .dict entries => do
          return .object (← entries.toList.mapM (fun (key, w) => do
            let name ← memberName h key
            return (name, ← Value.toJson h other depth (a :: inside) w)))
        | _ => other v
    | v => other v

/-- A value as plain data; values that are none are refused. -/
def Value.data (h : Heap) (v : Value) : Except DataFault Json :=
  v.toJson h (fun w => .error (.notData (w.className h))) depthLimit []

/-- A value as plain data; values that are none become their texts. -/
def Value.dataWithTexts (h : Heap) (v : Value) : Except DataFault Json :=
  v.toJson h (fun w => match w.plain h with
    | .ok s => .ok (.str s)
    | .error .tooDeep => .error .tooDeep
    | .error .longNumber => .error .longNumber) depthLimit []

end Workflow.Script
