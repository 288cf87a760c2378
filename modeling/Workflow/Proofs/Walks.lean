import Workflow.Proofs.Addresses
import Workflow.Proofs.Places

/-! Walks through a schema miss nothing: every step and every condition in it, however deep, is met on one of them. -/

namespace Workflow
open Engine (Query)

theorem itemAt?_mem {items : List Item} {cursor : Int} {i : Item} (found : itemAt? items cursor = some i) : i ∈ items := by
  unfold itemAt? at found
  split at found
  · split at found
    · cases found
    · exact List.mem_of_getElem? found
  · exact List.mem_of_getElem? found

/-- A query that is met on a walk through an item. -/
def Item.Meets (i : Item) : Query → Prop
  | .invoke id _ => ∃ path, (path, id) ∈ i.stepIds
  | .check _ c => ∃ path, (path, c) ∈ i.conditions

/-- A query that is met on a walk through a schema. -/
def Schema.Meets (items : Schema) : Query → Prop
  | .invoke id _ => ∃ path, (path, id) ∈ items.stepIds
  | .check _ c => ∃ path, (path, c) ∈ items.conditions

theorem Schema.meets_of_mem {items : Schema} {i : Item} {q : Query} (member : i ∈ items) (meets : i.Meets q) :
    items.Meets q := by
  cases q with
  | invoke id literal =>
    obtain ⟨path, inside⟩ := meets
    exact (enumerates_stepIdsFrom 0 items).mem_row i.enumerates_stepIds member inside
  | check role c =>
    obtain ⟨path, inside⟩ := meets
    exact (enumerates_conditionsFrom 0 items).mem_row i.enumerates_conditions member inside

theorem Item.meets_of_row {i : Item} {row : List Item} {looped : Bool} {q : Query} (inner : i.row? = some (row, looped))
    (meets : Schema.Meets row q) : i.Meets q := by
  have lower {α : Type} {path : Path} {a : α} {found : List (Path × α)} (inside : (path, a) ∈ found) :
      ([.steps] ++ path, a) ∈ below [.steps] found := List.mem_map.mpr ⟨_, inside, rfl⟩
  cases i with
  | step => cases inner
  | marker => cases inner
  | block items gate =>
    cases inner
    cases q with
    | invoke id literal =>
      obtain ⟨path, inside⟩ := meets
      exact ⟨_, lower inside⟩
    | check role c =>
      obtain ⟨path, inside⟩ := meets
      exact ⟨_, List.mem_append_right _ (lower inside)⟩
  | loop test items gate =>
    cases inner
    cases q with
    | invoke id literal =>
      obtain ⟨path, inside⟩ := meets
      exact ⟨_, lower inside⟩
    | check role c =>
      obtain ⟨path, inside⟩ := meets
      exact ⟨_, List.mem_append_right _ (lower inside)⟩

theorem Item.Poses.meets {i : Item} {q : Query} (poses : i.Poses q) : i.Meets q := by
  have gated {c : Condition} : ([.gate], c) ∈ gateAt (some c) := List.mem_singleton.mpr rfl
  cases poses with
  | gate same =>
    cases i with
    | step id literal gate =>
      cases same
      exact ⟨_, gated⟩
    | marker => cases same
    | block items gate =>
      cases same
      exact ⟨_, List.mem_append_left _ gated⟩
    | loop test items gate =>
      cases same
      exact ⟨_, List.mem_append_left _ (List.mem_append_left _ gated)⟩
  | step => exact ⟨_, List.mem_singleton.mpr rfl⟩
  | marker => exact ⟨_, List.mem_singleton.mpr rfl⟩
  | test => exact ⟨_, List.mem_append_left _ (List.mem_append_right _ (List.mem_singleton.mpr rfl))⟩

theorem Item.Asks.meets {i : Item} {cursors : List Int} {q : Query} (asks : i.Asks cursors q) : i.Meets q := by
  obtain ⟨j, found, poses⟩ := asks
  induction cursors generalizing i with
  | nil =>
    cases found
    exact poses.meets
  | cons cursor deeper ih =>
    rw [Item.below?] at found
    cases inner : i.row? with
    | none =>
      rw [inner] at found
      cases found
    | some pair =>
      obtain ⟨row, looped⟩ := pair
      rw [inner] at found
      dsimp only at found
      cases there : itemAt? row cursor with
      | none =>
        rw [there] at found
        cases found
      | some k =>
        rw [there] at found
        exact meets_of_row inner (Schema.meets_of_mem (itemAt?_mem there) (ih found))

/-- Whatever a schema asks for, anywhere in it, is met on a walk through it. -/
theorem Schema.Asks.meets {items : Schema} {cursors : List Int} {q : Query} (asks : items.Asks cursors q) :
    items.Meets q := by
  obtain ⟨j, found, poses⟩ := asks
  cases cursors with
  | nil => cases found
  | cons cursor deeper =>
    rw [Schema.find?] at found
    cases there : itemAt? items cursor with
    | none =>
      rw [there] at found
      cases found
    | some i =>
      rw [there] at found
      have inside : i.Asks deeper q := ⟨j, found, poses⟩
      exact meets_of_mem (itemAt?_mem there) inside.meets

end Workflow
