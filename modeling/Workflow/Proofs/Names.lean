import Workflow.Schema.Normal

/-! The form of a schema that was checked. Every step has an id that is not empty, and every marker lies in a loop. -/

namespace Workflow
open Script (Value)

mutual

/-- Every step in an item has an id that is not empty. -/
def Item.Named : Item → Prop
  | .step id _ _ => id ≠ ""
  | .block items _ => Schema.Named items
  | .loop _ items _ => Schema.Named items
  | .marker _ _ => True

def Schema.Named : List Item → Prop
  | [] => True
  | i :: rest => i.Named ∧ Schema.Named rest

end

mutual

/-- Every step in an item has an id that is not empty, and every marker lies in a loop, which may lie around the item. -/
def Item.Formed (inLoop : Bool) : Item → Prop
  | .step id _ _ => id ≠ ""
  | .block items _ => Schema.Formed inLoop items
  | .loop _ items _ => Schema.Formed true items
  | .marker _ _ => inLoop = true

def Schema.Formed (inLoop : Bool) : List Item → Prop
  | [] => True
  | i :: rest => i.Formed inLoop ∧ Schema.Formed inLoop rest

end

mutual

theorem Item.Formed.named {inLoop : Bool} : (i : Item) → i.Formed inLoop → i.Named
  | .step _ _ _, formed => formed
  | .block items _, formed => Schema.Formed.named items formed
  | .loop _ items _, formed => Schema.Formed.named items formed
  | .marker _ _, _ => trivial

theorem Schema.Formed.named {inLoop : Bool} : (items : List Item) → Schema.Formed inLoop items → Schema.Named items
  | [], _ => trivial
  | i :: rest, formed => ⟨Item.Formed.named i formed.1, Schema.Formed.named rest formed.2⟩

end

namespace Draft

/-- Whatever a check lets pass has a property. -/
def Yields (P : α → Prop) (c : Checked α) : Prop := ∀ a, c = .ok a → P a

theorem Yields.refused {P : α → Prop} (cause : Cause) : Yields P (refuse cause) := nofun

theorem Yields.bind {P : α → Prop} {Q : β → Prop} {c : Checked α} {k : α → Checked β} (first : Yields P c)
    (rest : ∀ a, P a → Yields Q (k a)) : Yields Q (c >>= k) := by
  intro b passed
  cases c with
  | error defect => cases passed
  | ok a => exact rest a (first a rfl) b passed

theorem Yields.any (c : Checked α) : Yields (fun _ => True) c := fun _ _ => trivial

theorem Yields.pure {P : α → Prop} {a : α} (holds : P a) : Yields P (Pure.pure a) := by
  rintro _ ⟨⟩
  exact holds

theorem Yields.at {P : α → Prop} {c : Checked α} (place : Place) (yields : Yields P c) :
    Yields P (Checked.at place c) := by
  intro a passed
  cases c with
  | error defect => cases passed
  | ok found =>
    cases passed
    exact yields _ rfl

theorem stepId_present (d : Draft) : Yields (· ≠ "") d.stepId := by
  intro id passed
  cases d with
  | text s =>
    simp only [stepId] at passed
    split at passed
    · cases passed
    · next present =>
      cases passed
      rintro rfl
      exact present rfl
  | _ => cases passed

theorem resolveStepId_present (space : Option String) {id : String} (present : id ≠ "") :
    resolveStepId space id ≠ "" := by
  cases space with
  | none => exact present
  | some space =>
    simp only [resolveStepId]
    split
    · exact present
    · intro empty
      have length := congrArg String.length empty
      simp [String.length_append] at length

theorem Yields.refused_bind {Q : β → Prop} (cause : Cause) (k : α → Checked β) : Yields Q (refuse cause >>= k) :=
  (Yields.refused cause).bind (fun _ impossible => impossible.elim) (P := fun _ => False)

section
variable (space : Option String) (inLoop : Bool)

theorem markerItem_formed (signal : Signal) (test : Draft) : Yields (Item.Formed inLoop) (markerItem inLoop signal test) := by
  simp only [markerItem]
  cases inLoop with
  | false => exact .refused_bind _ _
  | true => exact (Yields.any _).bind (fun _ _ => .pure rfl)

theorem markerTable_formed (signal : Signal) (test : Draft) (entries : List (Value × Draft)) :
    Yields (Item.Formed inLoop) (markerTable inLoop signal test entries) := by
  simp only [markerTable]
  split
  · exact .refused_bind _ _
  · exact markerItem_formed inLoop _ _

theorem stepTable_formed (id : Draft) (gate : Option Condition) (entries : List (Value × Draft)) :
    Yields (Item.Formed inLoop) (stepTable space id gate entries) := by
  simp only [stepTable]
  split
  · exact .refused_bind _ _
  · exact (stepId_present id).bind (fun _ present => .pure (resolveStepId_present space present))

theorem blockTable_formed (gate : Option Condition) (entries : List (Value × Draft)) {steps : Unit → Checked (List Item)}
    (inside : Yields (Schema.Formed (inLoop || (member? "while" entries).isSome)) (steps ())) :
    Yields (Item.Formed inLoop) (blockTable gate entries steps) := by
  simp only [blockTable]
  split
  · exact .refused_bind _ _
  · cases looped : member? "while" entries with
    | some test =>
      rw [looped, Option.isSome_some, Bool.or_true] at inside
      exact (Yields.any _).bind (fun _ _ => (inside.at _).bind (fun _ formed => .pure formed))
    | none =>
      rw [looped, Option.isSome_none, Bool.or_false] at inside
      exact (inside.at _).bind (fun _ formed => .pure formed)

theorem tableItem_formed (entries : List (Value × Draft)) {steps : Unit → Checked (List Item)}
    (inside : Yields (Schema.Formed (inLoop || (member? "while" entries).isSome)) (steps ())) :
    Yields (Item.Formed inLoop) (tableItem space inLoop entries steps) := by
  simp only [tableItem]
  split
  · exact markerTable_formed _ _ _ _
  · exact markerTable_formed _ _ _ _
  · refine (Yields.any _).bind (fun gate _ => ?_)
    split
    · exact stepTable_formed _ _ _ _ _
    · exact blockTable_formed _ _ _ inside
    · exact .refused _

end

mutual

theorem item_formed (space : Option String) (inLoop : Bool) (d : Draft) : Yields (Item.Formed inLoop) (item space inLoop d) :=
  match d with
  | .text _ => (stepId_present _).bind (fun _ present => .pure (resolveStepId_present space present))
  | .step _ label _ _ =>
    (stepId_present label).bind (fun _ present =>
      (Yields.any _).bind (fun _ _ => .pure (resolveStepId_present space present)))
  | .block _ steps _ =>
    (Yields.any _).bind (fun _ _ => ((rows_formed space inLoop steps).at _).bind (fun _ formed => .pure formed))
  | .loop _ _ steps _ =>
    (Yields.any _).bind (fun _ _ => (Yields.any _).bind (fun _ _ =>
      ((rows_formed space true steps).at _).bind (fun _ formed => .pure formed)))
  | .marker _ _ test => (Yields.any _).bind (fun signal _ => markerItem_formed inLoop signal test)
  | .table _ entries => tableItem_formed space inLoop entries (memberRows_formed space _ entries)
  | .nothing => .refused _
  | .callable _ => .refused _
  | .row _ _ => .refused _
  | .other _ => .refused _

theorem rows_formed (space : Option String) (inLoop : Bool) (d : Draft) :
    Yields (Schema.Formed inLoop) (rows space inLoop d) :=
  match d with
  | .row _ drafts => items_formed space inLoop 0 drafts
  | .nothing => .refused _
  | .text _ => .refused _
  | .callable _ => .refused _
  | .table _ _ => .refused _
  | .step _ _ _ _ => .refused _
  | .block _ _ _ => .refused _
  | .loop _ _ _ _ => .refused _
  | .marker _ _ _ => .refused _
  | .other _ => .refused _

theorem items_formed (space : Option String) (inLoop : Bool) (index : Nat) (drafts : List Draft) :
    Yields (Schema.Formed inLoop) (items space inLoop index drafts) :=
  match drafts with
  | [] => .pure trivial
  | d :: rest =>
    ((item_formed space inLoop d).at _).bind (fun _ first =>
      (items_formed space inLoop (index + 1) rest).bind (fun _ others => .pure ⟨first, others⟩))

theorem memberRows_formed (space : Option String) (inLoop : Bool) (entries : List (Value × Draft)) :
    Yields (Schema.Formed inLoop) (memberRows space inLoop entries) :=
  match entries with
  | [] => .pure trivial
  | (key, d) :: rest => by
    rw [memberRows]
    split
    · exact rows_formed space inLoop d
    · exact memberRows_formed space inLoop rest

end

variable {space : Option String} {d : Draft} {items : Schema}

/-- A draft that passes the check is a schema in which every step has an id that is not empty, and every marker lies in a
loop. -/
theorem schema_formed (checked : d.schema space = .ok items) : Schema.Formed false items :=
  rows_formed space false d items checked

theorem schema_named (checked : d.schema space = .ok items) : Schema.Named items :=
  Schema.Formed.named items (schema_formed checked)

end Draft

end Workflow
