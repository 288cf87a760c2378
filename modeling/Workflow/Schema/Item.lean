import Workflow.Script.Value

/-! Schemas: rows of steps, blocks, loops and markers. -/

namespace Workflow
open Script (Value)

/-- What a marker whose test holds does to the innermost loop around it. -/
inductive Signal where
  | breakLoop
  | continueLoop
  deriving DecidableEq, Repr

def Signal.name : Signal → String
  | .breakLoop => "break"
  | .continueLoop => "continue"

/-- A test on the context: a source to evaluate or a value to call. -/
inductive Condition where
  | source (text : String)
  | call (f : Value)
  deriving Repr

def Condition.value : Condition → Value
  | .source text => .str text
  | .call f => f

/-- An item of a schema. A gate decides whether its item runs at all. -/
inductive Item where
  | step (id : String) (input : Value) (gate : Option Condition)
  | block (items : List Item) (gate : Option Condition)
  | loop (test : Condition) (items : List Item) (gate : Option Condition)
  | marker (signal : Signal) (test : Condition)
  deriving Repr

abbrev Schema := List Item

/-- The id of a step within a namespace. An id that names its namespace keeps it. -/
def resolveStepId (space : Option String) (id : String) : String :=
  match space with
  | none => id
  | some space => if space.isEmpty || id.contains '/' then id else space ++ "/" ++ id

end Workflow
