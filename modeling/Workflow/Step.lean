import Workflow.Script.Evaluator

/-! Steps: the smallest units of work. -/

namespace Workflow
open Script (Value Entries)

/-- What a step does: a source that is evaluated, or a value that is called. -/
inductive Handler where
  | source (text : String)
  | call (f : Value)
  deriving Repr

def Handler.value : Handler → Value
  | .source text => .str text
  | .call f => f

/-- A step that declares an input asks for it when it gets none. The globals are bound in its source. -/
structure Step where
  id : String
  handler : Handler
  input : Value := .nothing
  globals : Entries := #[]

namespace Step

def requiresInput (s : Step) : Bool :=
  match s.input with
  | .nothing => false
  | _ => true

/-- The written form of a step. -/
def text (s : Step) : String := s!"Step({Text.quote s.id})"

/-- What the source of a step may name: the classes of outcomes, the globals, the context and the input,
of which later ones hide earlier ones. -/
def bindings (s : Step) (context input : Value) : Entries :=
  let classes : Entries := (Script.outcomeClasses.map (fun (n, v) => (Value.str n, v))).toArray
  let all := Entries.insertAll classes s.globals
  Entries.insert (Entries.insert all (.str "ctx") context) (.str "input") input

end Step

end Workflow
