import Workflow.Script.Evaluator

/-! Results of calls, and their snapshots as plain data. -/

namespace Workflow
open Script (Value Act Entries Heap)

/-- A result, with any values in its fields. -/
structure Result where
  schema : Value
  context : Value
  indexes : Value
  finished : Value := .bool false
  stepId : Value := .str ""
  inputRequired : Value := .nothing
  interrupt : Value := .bool false
  loopSignal : Value := .nothing
  error : Value := .nothing
  errors : Value := .nothing
  expires : Value := .nothing
  deriving Repr

def isPresent : Value → Bool
  | .nothing => false
  | _ => true

/-- The entry of a field that is left out when it is not set. -/
def presentEntry (name : String) (v : Value) : List (Value × Value) :=
  if isPresent v then [(.str name, v)] else []

/-- An error as plain data: its class and its message. -/
def errorData (error : Value) : Act Value := do
  let category := error.className (← get)
  let message ← Act.plain error
  Act.newDict #[(.str "type", .str category), (.str "message", .str message)]

def errorItems : List Value → Act (List Value)
  | [] => return []
  | v :: rest => do
    let shown ← if Script.isError (← get) v then errorData v else pure v
    return shown :: (← errorItems rest)

/-- The items of a value. Those of a list are there already; any other value is walked over. -/
def rowOf (v : Value) : Act (Array Value) := do
  match v with
  | .ref a =>
    match ← Act.object a with
    | .list items => return items
    | _ => Script.itemsOf Script.interpreter v
  | v => Script.itemsOf Script.interpreter v

/-- A new list of the items of a value. -/
def listOf (v : Value) : Act Value := do Act.newList (← rowOf v)

/-- An error as plain data, if there is one. -/
def errorOf (error : Value) : Act Value := do
  match error with
  | .nothing => return .nothing
  | v => errorData v

/-- A new list of errors as plain data, if there are some. -/
def errorsOf (errors : Value) : Act Value := do
  match errors with
  | .nothing => return .nothing
  | v => do
    let items ← rowOf v
    Act.newList (← errorItems items.toList).toArray

namespace Result

/-- The entries of a snapshot, without what is not set. -/
def entries (r : Result) (state error errors : Value) : Entries :=
  #[(.str "schema_id", r.schema), (.str "state", state), (.str "finished", r.finished), (.str "step_id", r.stepId)] ++
    (presentEntry "input_required" r.inputRequired ++ presentEntry "error" error ++
      presentEntry "errors" errors ++ presentEntry "expires" r.expires).toArray

def snapshot (r : Result) : Act Value := do
  let indexes ← listOf r.indexes
  let state ← Act.newDict #[(.str "context", r.context), (.str "indexes", indexes)]
  let error ← errorOf r.error
  let errors ← errorsOf r.errors
  Act.newDict (r.entries state error errors)

end Result

end Workflow
