import Workflow.Engine.Position
import Workflow.Proofs.Program

/-! Positions in a schema: those from which a call can go on, which are the ones that the check of a position
passes, and those that point at one condition or step. -/

namespace Workflow
open Engine (Position Query)

/-- A position inside an item from which the item can be gone on with: the item itself, an item of its row,
or what lies behind the end of the body of a loop. -/
inductive Item.Admits : Item → Position → Prop where
  | here {i} : Admits i []
  | parked {i items} (row : i.row? = some (items, true)) : Admits i [items.length]
  | inside {i items looped next j deeper} (row : i.row? = some (items, looped))
      (found : items[next]? = some j) (admits : Admits j deeper) : Admits i (next :: deeper)

/-- A position in a schema from which a call can go on. -/
def Schema.Admits (schema : Schema) : Position → Prop
  | [] => False
  | next :: deeper => ∃ i, schema[next]? = some i ∧ i.Admits deeper

/-- What stands at a position inside an item: its gate, itself, the test behind the body of a loop, or what
stands inside an item of its row. -/
inductive Item.Holds : Item → Position → Query → Prop where
  | gate {i c} (gated : i.gate? = some c) : Holds i [] (.check .gate c)
  | step {id literal gate} : Holds (.step id literal gate) [] (.invoke id literal)
  | marker {signal test} : Holds (.marker signal test) [] (.check (.marker signal) test)
  | test {test items gate} : Holds (.loop test items gate) [items.length] (.check .test test)
  | inside {i items looped next j deeper q} (row : i.row? = some (items, looped))
      (found : items[next]? = some j) (holds : Holds j deeper q) : Holds i (next :: deeper) q

def Schema.Holds (schema : Schema) (q : Query) : Position → Prop
  | [] => False
  | next :: deeper => ∃ i, schema[next]? = some i ∧ i.Holds deeper q

theorem Item.Holds.admits {i : Item} {position : Position} {q : Query} (holds : i.Holds position q) :
    i.Admits position := by
  induction holds with
  | gate => exact .here
  | step => exact .here
  | marker => exact .here
  | test => exact .parked rfl
  | inside row found _ ih => exact .inside row found ih

theorem Schema.Holds.admits {schema : Schema} {position : Position} {q : Query}
    (holds : schema.Holds q position) : schema.Admits position := by
  cases position with
  | nil => exact holds
  | cons next deeper =>
    obtain ⟨i, found, holds⟩ := holds
    exact ⟨i, found, holds.admits⟩

theorem Item.admits_cons {i : Item} {next : Nat} {deeper : Position} :
    i.Admits (next :: deeper) ↔ ∃ items looped, i.row? = some (items, looped) ∧
      ((∃ j, items[next]? = some j ∧ j.Admits deeper) ∨
        deeper = [] ∧ looped = true ∧ next = items.length) := by
  constructor
  · intro admits
    cases admits with
    | parked row => exact ⟨_, _, row, .inr ⟨rfl, rfl, rfl⟩⟩
    | inside row found admits => exact ⟨_, _, row, .inl ⟨_, found, admits⟩⟩
  · rintro ⟨items, looped, row, ⟨j, found, admits⟩ | ⟨rfl, rfl, rfl⟩⟩
    · exact .inside row found admits
    · exact .parked row

theorem itemAt?_natCast (items : List Item) (next : Nat) : itemAt? items next = items[next]? := by
  unfold itemAt?
  rw [if_neg (by omega), Int.toNat_natCast]

theorem checkCursors_cons (items : List Item) (inLoop : Bool) (depth next : Nat) (deeper : Position) :
    checkCursors items inLoop depth (Position.cursors (next :: deeper)) = .ok () ↔
      (∃ i, items[next]? = some i ∧ i.Admits deeper) ∨
        deeper = [] ∧ inLoop = true ∧ next = items.length := by
  -- Only the last cursor may lie behind the end of a row, so the cases are those of `deeper`.
  induction deeper generalizing items inLoop depth next with
  | nil =>
    simp only [Engine.Position.cursors_cons, Engine.Position.cursors_nil, checkCursors, itemAt?_natCast]
    by_cases inside : next < items.length
    · have other : ¬ (next : Int) = items.length := by omega
      have below : ¬ (next : Int) ≥ items.length := by omega
      simp only [List.isEmpty_nil, Bool.true_and, Bool.and_eq_true, beq_iff_eq, other, and_false, if_false,
        below, List.getElem?_eq_getElem inside, if_true, true_iff]
      exact .inl ⟨_, rfl, .here⟩
    · have missing : items[next]? = none := List.getElem?_eq_none (by omega)
      have beyond : (next : Int) ≥ items.length := by omega
      have same : ((next : Int) = items.length) ↔ next = items.length := by omega
      simp only [List.isEmpty_nil, Bool.true_and, Bool.and_eq_true, beq_iff_eq, missing, beyond, if_true,
        same]
      split
      · next parked =>
        simp only [true_iff]
        exact .inr ⟨trivial, parked⟩
      · next refused =>
        simp only [reduceCtorEq, false_and, exists_false, true_and, false_or, false_iff]
        exact refused
  | cons next' deeper ih =>
    rw [Engine.Position.cursors_cons, checkCursors, itemAt?_natCast]
    simp only [Engine.Position.cursors_cons, List.isEmpty_cons, Bool.false_and, Bool.false_eq_true, if_false,
      reduceCtorEq, false_and, or_false]
    by_cases inside : next < items.length
    · have below : ¬ (next : Int) ≥ items.length := by omega
      simp only [below, if_false, List.getElem?_eq_getElem inside, Option.some.injEq, exists_eq_left',
        Item.admits_cons]
      cases row : items[next].row? with
      | none => simp
      | some inner =>
        obtain ⟨inner, looped⟩ := inner
        simp only [← Engine.Position.cursors_cons, ih]
        constructor
        · exact fun inner => ⟨_, _, rfl, inner⟩
        · rintro ⟨_, _, same, inner⟩
          cases same
          exact inner
    · have missing : items[next]? = none := List.getElem?_eq_none (by omega)
      have beyond : (next : Int) ≥ items.length := by omega
      simp [missing, beyond]

/-- The check of a position passes exactly the positions from which a call can go on. -/
theorem Schema.checkPosition_iff (schema : Schema) (position : Position) :
    schema.checkPosition position.cursors = .ok () ↔ schema.Admits position := by
  cases position with
  | nil => simp [Schema.checkPosition, Schema.Admits]
  | cons next deeper =>
    have present : (Position.cursors (next :: deeper)).isEmpty = false := rfl
    rw [Schema.checkPosition, present, if_neg Bool.false_ne_true, checkCursors_cons]
    simp [Schema.Admits]

end Workflow
