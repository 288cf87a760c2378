import Workflow.Schema.Item
import Workflow.Script.Eval

/-! Drafts: what a value looks like where a schema or a part of one may stand. -/

namespace Workflow
open Script (Value Heap)

inductive Draft where
  | nothing
  | text (s : String)
  | callable (v : Value)
  | row (v : Value) (items : List Draft)
  | table (v : Value) (entries : List (Value × Draft))
  | step (v : Value) (id input gate : Draft)
  | block (v : Value) (steps gate : Draft)
  | loop (v : Value) (test steps gate : Draft)
  | marker (v : Value) (kind test : Draft)
  | other (v : Value)
  deriving Repr

namespace Draft

def value : Draft → Value
  | .nothing => .nothing
  | .text s => .str s
  | .callable v => v
  | .row v _ => v
  | .table v _ => v
  | .step v _ _ _ => v
  | .block v _ _ => v
  | .loop v _ _ _ => v
  | .marker v _ _ => v
  | .other v => v

/-- The draft of a member that holds no items. -/
def ofMember (h : Heap) (v : Value) : Draft :=
  match v with
  | .nothing => .nothing
  | .str s => .text s
  | v => if v.isCallable h then .callable v else .other v

/-- The draft of a value, which may hold items only down to some depth. -/
def ofValue? (h : Heap) : (depth : Nat) → Value → Option Draft
  | 0, _ => none
  | depth + 1, v =>
    match v with
    | .tuple items => do return .row v (← items.mapM (ofValue? h depth))
    | .ref a =>
      match h.object a with
      | .list items => do return .row v (← items.toList.mapM (ofValue? h depth))
      | .dict entries => do
        return .table v (← entries.toList.mapM (fun (key, w) => do
          if key.sameKey (.str "steps") then return (key, ← ofValue? h depth w)
          else return (key, ofMember h w)))
      | .record kind fields =>
        let field (name : String) : Value := (Script.Fields.get? fields name).getD .nothing
        let member (name : String) : Draft := ofMember h (field name)
        match kind with
        | .stepRef => some (.step v (member "id") (member "input") (member "condition"))
        | .subflowBlock => do
          return .block v (← ofValue? h depth (field "steps")) (member "condition")
        | .loopBlock => do
          return .loop v (member "while_") (← ofValue? h depth (field "steps")) (member "condition")
        | .controlMarker => some (.marker v (member "kind") (member "condition"))
        | _ => some (.other v)
      | _ => some (ofMember h v)
    | v => some (ofMember h v)

def member? (name : String) (entries : List (Value × Draft)) : Option Draft :=
  (entries.find? (fun entry => entry.1.sameKey (.str name))).map (·.2)

/-- The keys that are none of some names. -/
def keysBeside (names : List String) (entries : List (Value × Draft)) : List Value :=
  (entries.map (·.1)).filter (fun key => !names.any (fun name => key.sameKey (.str name)))

end Draft

end Workflow
