import Workflow.Schema.Item

/-! Positions that a call can go on from. -/

namespace Workflow

/-- Why a position is refused. The depth counts the cursors before the one at fault. -/
inductive PositionFault where
  | missing
  | outOfRange (depth : Nat)
  | notBlock (depth : Nat)
  | beforeStart (depth : Nat)
  deriving DecidableEq, Repr

/-- The item at a cursor. Below zero, cursors count from the end. -/
def itemAt? (items : List Item) (cursor : Int) : Option Item :=
  if cursor < 0 then
    if cursor + items.length < 0 then none else items[(cursor + items.length).toNat]?
  else items[cursor.toNat]?

/-- The row inside an item, and whether it is the body of a loop. -/
def Item.row? : Item → Option (List Item × Bool)
  | .block items _ => some (items, false)
  | .loop _ items _ => some (items, true)
  | _ => none

/-- Follows cursors into a row. The last one may lie behind the end of the body of a loop. -/
def checkCursors (items : List Item) (inLoop : Bool) (depth : Nat) :
    List Int → Except PositionFault Unit
  | [] => .ok ()
  | cursor :: deeper =>
    if deeper.isEmpty && inLoop && cursor == items.length then .ok ()
    else if cursor ≥ items.length then .error (.outOfRange depth)
    else
      match itemAt? items cursor with
      | none => .error (.beforeStart depth)
      | some item =>
        if deeper.isEmpty then .ok ()
        else
          match item.row? with
          | none => .error (.notBlock depth)
          | some (row, isLoop) => checkCursors row isLoop (depth + 1) deeper

def Schema.checkPosition (schema : Schema) (position : List Int) : Except PositionFault Unit :=
  if position.isEmpty then .error .missing else checkCursors schema false 0 position

end Workflow
