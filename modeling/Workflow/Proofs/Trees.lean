import Workflow.Proofs.Fallible
import Workflow.Proofs.Halts
import Workflow.Script.Data

/-! Values that are trees of plain data: no object of theirs is in two places. What is read from a text is such a tree,
and all of its objects are new. -/

namespace Workflow.Script
open Engine (Work)

mutual

/-- A value holds some data, in objects at some addresses, none of which comes twice. -/
inductive Heap.Tree (h : Heap) : Value → Json → List Addr → Prop where
  | null : Tree h .nothing .null []
  | bool (b : Bool) : Tree h (.bool b) (.bool b) []
  | int (n : Int) : Tree h (.int n) (.int n) []
  | float (x : Float) : Tree h (.float x) (.float x) []
  | str (s : String) : Tree h (.str s) (.str s) []
  | array {a items js as} (found : h.objects[a]? = some (.list items)) (inside : Trees h items.toList js as)
      (apart : a ∉ as) : Tree h (.ref a) (.array js) (a :: as)
  | object {a entries ms as} (found : h.objects[a]? = some (.dict entries)) (inside : Branches h entries.toList ms as)
      (apart : a ∉ as) : Tree h (.ref a) (.object ms) (a :: as)

/-- The items of an array. -/
inductive Heap.Trees (h : Heap) : List Value → List Json → List Addr → Prop where
  | nil : Trees h [] [] []
  | cons {v vs j js as bs} (first : Tree h v j as) (rest : Trees h vs js bs) (apart : ∀ a ∈ as, a ∉ bs) :
      Trees h (v :: vs) (j :: js) (as ++ bs)

/-- The entries of an object, whose names are texts. -/
inductive Heap.Branches (h : Heap) : List (Value × Value) → List (String × Json) → List Addr → Prop where
  | nil : Branches h [] [] []
  | cons {name v entries j ms as bs} (first : Tree h v j as) (rest : Branches h entries ms bs) (apart : ∀ a ∈ as, a ∉ bs) :
      Branches h ((.str name, v) :: entries) ((name, j) :: ms) (as ++ bs)

end

namespace Heap
variable {h h' : Heap} {v : Value} {j : Json} {as : List Addr}

/-! A tree stays the same in a heap that has the same objects at its addresses. -/

mutual

theorem Tree.congr {v : Value} {j : Json} {as : List Addr} (tree : h.Tree v j as)
    (same : ∀ a ∈ as, ∀ o, h.objects[a]? = some o → h'.objects[a]? = some o) : h'.Tree v j as := by
  cases tree with
  | null => exact .null
  | bool b => exact .bool b
  | int n => exact .int n
  | float x => exact .float x
  | str s => exact .str s
  | array found inside apart =>
    exact .array (same _ List.mem_cons_self _ found)
      (inside.congr (fun a member => same a (List.mem_cons_of_mem _ member))) apart
  | object found inside apart =>
    exact .object (same _ List.mem_cons_self _ found)
      (inside.congr (fun a member => same a (List.mem_cons_of_mem _ member))) apart

theorem Trees.congr {vs : List Value} {js : List Json} {as : List Addr} (trees : h.Trees vs js as)
    (same : ∀ a ∈ as, ∀ o, h.objects[a]? = some o → h'.objects[a]? = some o) : h'.Trees vs js as := by
  cases trees with
  | nil => exact .nil
  | cons first rest apart =>
    exact .cons (first.congr (fun a member => same a (List.mem_append_left _ member)))
      (rest.congr (fun a member => same a (List.mem_append_right _ member))) apart

theorem Branches.congr {entries : List (Value × Value)} {ms : List (String × Json)} {as : List Addr}
    (branches : h.Branches entries ms as)
    (same : ∀ a ∈ as, ∀ o, h.objects[a]? = some o → h'.objects[a]? = some o) : h'.Branches entries ms as := by
  cases branches with
  | nil => exact .nil
  | cons first rest apart =>
    exact .cons (first.congr (fun a member => same a (List.mem_append_left _ member)))
      (rest.congr (fun a member => same a (List.mem_append_right _ member))) apart

end

/-- What is made of some data is new: it lies behind all that was there before. -/
def Fresh (h h' : Heap) (as : List Addr) : Prop := ∀ a ∈ as, h.objects.size ≤ a ∧ h'.objects.size > a

theorem Extends.size_le (grows : h.Extends h') : h.objects.size ≤ h'.objects.size := by
  refine Nat.le_of_not_lt (fun inside => ?_)
  obtain ⟨below, -⟩ := Array.getElem?_eq_some_iff.mp (grows _ _ (Array.getElem?_eq_getElem inside))
  exact Nat.lt_irrefl _ below

theorem Fresh.trans {h'' : Heap} {bs : List Addr} (first : Fresh h h' as) (second : Fresh h' h'' bs) (grows : h.Extends h')
    (more : h'.Extends h'') : Fresh h h'' (as ++ bs) ∧ ∀ a ∈ as, a ∉ bs := by
  have low := grows.size_le
  have high := more.size_le
  refine ⟨fun a member => ?_, fun a here there => ?_⟩
  · obtain here | there := List.mem_append.mp member
    · have := first a here
      omega
    · have := second a there
      omega
  · have := first a here
    have := second a there
    omega

theorem Fresh.alloc {o : Object} (fresh : Fresh h h' as) (grows : h.Extends h') :
    Fresh h (h'.alloc o).2 (h'.objects.size :: as) ∧ h'.objects.size ∉ as := by
  have low := grows.size_le
  have size : (h'.alloc o).2.objects.size = h'.objects.size + 1 := Array.size_push _
  refine ⟨fun a member => ?_, fun member => Nat.lt_irrefl _ (fresh _ member).2⟩
  obtain rfl | member := List.mem_cons.mp member
  · omega
  · have := fresh a member
    omega

end Heap

mutual

/-- The value that is made of some data is a tree of new objects. -/
theorem ofJson_tree (j : Json) (h : Heap) : ∃ v h' as, ofJson j h = .ok v h' ∧ h'.Tree v j as ∧ h.Extends h' ∧ h.Fresh h' as := by
  cases j with
  | null => exact ⟨_, h, [], rfl, .null, .refl h, by simp [Heap.Fresh]⟩
  | bool b => exact ⟨_, h, [], rfl, .bool b, .refl h, by simp [Heap.Fresh]⟩
  | int n => exact ⟨_, h, [], rfl, .int n, .refl h, by simp [Heap.Fresh]⟩
  | float x => exact ⟨_, h, [], rfl, .float x, .refl h, by simp [Heap.Fresh]⟩
  | str s => exact ⟨_, h, [], rfl, .str s, .refl h, by simp [Heap.Fresh]⟩
  | array js =>
    obtain ⟨vs, h₁, as, made, trees, grows, fresh⟩ := ofJsonItems_trees js h
    have more := Heap.Extends.alloc h₁ (.list vs.toArray)
    obtain ⟨fresh, apart⟩ := fresh.alloc (o := .list vs.toArray) grows
    refine ⟨.ref h₁.objects.size, (h₁.alloc (.list vs.toArray)).2, _, ?_, .array (h₁.alloc_found _) ?_ apart,
      grows.trans more, fresh⟩
    · simp only [ofJson, Bind.bind, EStateM.bind, made, Act.newList_eq]
    · exact trees.congr (fun a _ o found => more a o found)
  | object ms =>
    obtain ⟨entries, h₁, as, made, branches, grows, fresh⟩ := ofJsonMembers_branches ms h
    have more := Heap.Extends.alloc h₁ (.dict entries.toArray)
    obtain ⟨fresh, apart⟩ := fresh.alloc (o := .dict entries.toArray) grows
    refine ⟨.ref h₁.objects.size, (h₁.alloc (.dict entries.toArray)).2, _, ?_, .object (h₁.alloc_found _) ?_ apart,
      grows.trans more, fresh⟩
    · simp only [ofJson, Bind.bind, EStateM.bind, made, Act.newDict_eq]
    · exact branches.congr (fun a _ o found => more a o found)

theorem ofJsonItems_trees (js : List Json) (h : Heap) :
    ∃ vs h' as, ofJsonItems js h = .ok vs h' ∧ h'.Trees vs js as ∧ h.Extends h' ∧ h.Fresh h' as := by
  cases js with
  | nil => exact ⟨[], h, [], rfl, .nil, .refl h, by simp [Heap.Fresh]⟩
  | cons j js =>
    obtain ⟨v, h₁, as, made, tree, grows, fresh⟩ := ofJson_tree j h
    obtain ⟨vs, h₂, bs, others, trees, more, fresher⟩ := ofJsonItems_trees js h₁
    obtain ⟨fresh, apart⟩ := fresh.trans fresher grows more
    refine ⟨v :: vs, h₂, as ++ bs, ?_, .cons (tree.congr (fun a _ o found => more a o found)) trees apart,
      grows.trans more, fresh⟩
    simp only [ofJsonItems, Bind.bind, EStateM.bind, made, others]
    rfl

theorem ofJsonMembers_branches (ms : List (String × Json)) (h : Heap) :
    ∃ entries h' as, ofJsonMembers ms h = .ok entries h' ∧ h'.Branches entries ms as ∧ h.Extends h' ∧ h.Fresh h' as := by
  match ms with
  | [] => exact ⟨[], h, [], rfl, .nil, .refl h, by simp [Heap.Fresh]⟩
  | (name, j) :: ms =>
    obtain ⟨v, h₁, as, made, tree, grows, fresh⟩ := ofJson_tree j h
    obtain ⟨entries, h₂, bs, others, branches, more, fresher⟩ := ofJsonMembers_branches ms h₁
    obtain ⟨fresh, apart⟩ := fresh.trans fresher grows more
    refine ⟨(.str name, v) :: entries, h₂, as ++ bs, ?_, .cons (tree.congr (fun a _ o found => more a o found)) branches apart,
      grows.trans more, fresh⟩
    simp only [ofJsonMembers, Bind.bind, EStateM.bind, made, others]
    rfl

end

end Workflow.Script
