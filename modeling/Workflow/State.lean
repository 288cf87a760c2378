import Workflow.World

/-! States: a context and a position in a schema, as plain data or checked before. -/

namespace Workflow
open Script (Value Act Entries)

structure State where
  context : Value
  position : List Int
  deriving Repr

/-- A position in its written form. -/
def positionText (cursors : List Int) : String :=
  "[" ++ ", ".intercalate (cursors.map Number.intText) ++ "]"

namespace State

/-- A whole number that is not negative, and no truth value. -/
def isIndex : Value → Bool
  | .int n => 0 ≤ n
  | _ => false

def ofData (data : Value) : Job State := do
  let h := (← get).heap
  match data.entries? h with
  | none => Job.refuse (.notState (data.className h))
  | some entries =>
    let context := (Entries.named? entries "context").getD .nothing
    match Entries.named? entries "indexes" with
    | none => return ⟨context, []⟩
    | some indexes =>
      match (indexes.listItems? h).filter (·.all isIndex) with
      | some items => return ⟨context, items.toList.filterMap Value.int?⟩
      | none => do Job.refuse (.notIndexes (← Job.act (Act.quoted indexes)))

def cursorsOf : List Value → Job (List Int)
  | [] => return []
  | v :: rest =>
    match v.int? with
    | some n => do return n :: (← cursorsOf rest)
    | none => Job.act (Act.typeError "list indices must be integers or slices")

/-- The state that a value stands for, which was checked before or is plain data. -/
def ofValue (v : Value) : Job State := do
  match v with
  | .ref a =>
    match (← get).heap.object a with
    | .record .flowState fields => do
      let context := (Script.Fields.get? fields "context").getD .nothing
      let indexes := (Script.Fields.get? fields "indexes").getD .nothing
      let items ← Job.act (rowOf indexes)
      return ⟨context, ← cursorsOf items.toList⟩
    | _ => ofData v
  | _ => ofData v

def data (s : State) : Act Value := do
  let indexes ← Act.newList (s.position.map Value.int).toArray
  Act.newDict #[(.str "context", s.context), (.str "indexes", indexes)]

end State

end Workflow
