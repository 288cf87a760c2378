import Workflow.Schema.Draft
import Workflow.Schema.Path
import Workflow.Text.Blank

/-! From drafts to schemas. A draft that is no schema is refused with its first defect: rows are
read from the front, and an item is looked at before its contents. -/

namespace Workflow
open Script (Value)

/-- What is wrong with a part of a draft. -/
inductive Cause where
  | notRow (v : Value)
  | notItem (v : Value)
  | stepId (v : Value)
  | noCondition
  | emptyCondition
  | notCondition (v : Value)
  | unknownMarker (kind : Value)
  | outsideLoop (signal : Signal)
  | mixedMarker (signal : Signal) (others : List Value)
  | stepFields (unknown : List Value)
  | blockFields (unknown : List Value)
  | shapeless
  deriving Repr

structure Defect where
  path : Path
  cause : Cause
  deriving Repr

abbrev Checked (α : Type) := Except Defect α

/-- A check of a part, seen from the whole. -/
def Checked.at (place : Place) : Checked α → Checked α
  | .ok a => .ok a
  | .error d => .error { d with path := place :: d.path }

def refuse (cause : Cause) : Checked α := .error ⟨[], cause⟩

namespace Draft

def stepId : Draft → Checked String
  | .text id => if id.isEmpty then refuse (.stepId (.str id)) else .ok id
  | d => refuse (.stepId d.value)

/-- A condition that has to be there. -/
def condition : Draft → Checked Condition
  | .nothing => refuse .noCondition
  | .text s => if s.toList.all Text.isBlank then refuse .emptyCondition else .ok (.source s)
  | .callable f => .ok (.call f)
  | d => refuse (.notCondition d.value)

/-- A condition that may be missing. -/
def gate : Draft → Checked (Option Condition)
  | .nothing => .ok none
  | d => do return some (← d.condition)

/-- A marker, which belongs into a loop. -/
def markerItem (inLoop : Bool) (signal : Signal) (test : Draft) : Checked Item := do
  if !inLoop then refuse (.outsideLoop signal)
  return .marker signal (← Checked.at (.marker signal) test.condition)

/-- A marker written as the only entry of a table. -/
def markerTable (inLoop : Bool) (signal : Signal) (test : Draft) (entries : List (Value × Draft)) :
    Checked Item := do
  let others := keysBeside [signal.name] entries
  if !others.isEmpty then refuse (.mixedMarker signal others)
  markerItem inLoop signal test

def stepTable (space : Option String) (id : Draft) (gate : Option Condition)
    (entries : List (Value × Draft)) : Checked Item := do
  let unknown := keysBeside ["id", "input", "condition"] entries
  if !unknown.isEmpty then refuse (.stepFields unknown)
  let input := ((member? "input" entries).map value).getD .nothing
  return .step (resolveStepId space (← id.stepId)) input gate

/-- A block or a loop written as a table that holds some rows. -/
def blockTable (gate : Option Condition) (entries : List (Value × Draft))
    (steps : Unit → Checked (List Item)) : Checked Item := do
  let unknown := keysBeside ["steps", "condition", "while"] entries
  if !unknown.isEmpty then refuse (.blockFields unknown)
  match member? "while" entries with
  | some test => do
    let test ← Checked.at .test test.condition
    return .loop test (← Checked.at .steps (steps ())) gate
  | none => return .block (← Checked.at .steps (steps ())) gate

def tableItem (space : Option String) (inLoop : Bool) (entries : List (Value × Draft))
    (steps : Unit → Checked (List Item)) : Checked Item := do
  match member? "break" entries, member? "continue" entries with
  | some test, _ => markerTable inLoop .breakLoop test entries
  | none, some test => markerTable inLoop .continueLoop test entries
  | none, none => do
    let gate ← Checked.at .gate ((member? "condition" entries).getD .nothing).gate
    match member? "id" entries, member? "steps" entries with
    | some id, _ => stepTable space id gate entries
    | none, some _ => blockTable gate entries steps
    | none, none => refuse .shapeless

/-- The signal that the kind of a marker stands for. -/
def signal : Draft → Checked Signal
  | .text "break" => .ok .breakLoop
  | .text "continue" => .ok .continueLoop
  | d => refuse (.unknownMarker d.value)

mutual

/-- The item that a draft stands for, inside a loop or outside of all loops. -/
def item (space : Option String) (inLoop : Bool) : Draft → Checked Item
  | .text id => do return .step (resolveStepId space (← (Draft.text id).stepId)) .nothing none
  | .step _ id input gate => do
    let id ← id.stepId
    return .step (resolveStepId space id) input.value (← Checked.at .gate gate.gate)
  | .block _ steps gate => do
    let gate ← Checked.at .gate gate.gate
    return .block (← Checked.at .steps (rows space inLoop steps)) gate
  | .loop _ test steps gate => do
    let test ← Checked.at .test test.condition
    let gate ← Checked.at .gate gate.gate
    return .loop test (← Checked.at .steps (rows space true steps)) gate
  | .marker _ kind test => do markerItem inLoop (← kind.signal) test
  | .table _ entries =>
    tableItem space inLoop entries
      (fun _ => memberRows space (inLoop || (member? "while" entries).isSome) entries)
  | d => refuse (.notItem d.value)

/-- The items that a draft of a row stands for. -/
def rows (space : Option String) (inLoop : Bool) : Draft → Checked (List Item)
  | .row _ drafts => items space inLoop 0 drafts
  | d => refuse (.notRow d.value)

/-- The items of some drafts, of which the first has an index. -/
def items (space : Option String) (inLoop : Bool) : (index : Nat) → List Draft → Checked (List Item)
  | _, [] => .ok []
  | index, d :: rest => do
    let found ← Checked.at (.item index) (d.item space inLoop)
    return found :: (← items space inLoop (index + 1) rest)

/-- The items below the entry for steps. -/
def memberRows (space : Option String) (inLoop : Bool) : List (Value × Draft) → Checked (List Item)
  | [] => .ok []
  | (key, d) :: rest =>
    if key.sameKey (.str "steps") then rows space inLoop d else memberRows space inLoop rest

end

/-- The schema that a draft stands for, with its step ids in a namespace. -/
def schema (space : Option String) (d : Draft) : Checked Schema := d.rows space false

end Draft

end Workflow
