import Workflow.Fault

/-! Computations that may fail, step by step and over the items of a list. -/

namespace Workflow.Fallible
variable {ε : Type}

theorem bind_ok {x : Except ε α} {k : α → Except ε β} {b : β} (ok : x >>= k = .ok b) : ∃ a, x = .ok a ∧ k a = .ok b := by
  cases x with
  | error => cases ok
  | ok a => exact ⟨a, rfl, ok⟩

theorem bind_ok_imp {x y : Except ε α} {k l : α → Except ε β} {b : β} (ok : x >>= k = .ok b)
    (first : ∀ a, x = .ok a → y = .ok a) (rest : ∀ a, k a = .ok b → l a = .ok b) : y >>= l = .ok b := by
  obtain ⟨a, found, done⟩ := bind_ok ok
  rw [first a found]
  exact rest a done

theorem mapM_congr {m : Type → Type} [Monad m] [LawfulMonad m] {α β : Type} {f g : α → m β} {items : List α}
    (same : ∀ a ∈ items, f a = g a) : items.mapM f = items.mapM g := by
  induction items with
  | nil => rw [List.mapM_nil, List.mapM_nil]
  | cons a rest ih =>
    rw [List.mapM_cons, List.mapM_cons, same a (by simp), ih (fun b member => same b (by simp [member]))]

theorem mapM_ok_imp {f g : α → Except ε β} {items : List α} {found : List β} (ok : items.mapM f = .ok found)
    (implies : ∀ a ∈ items, ∀ b, f a = .ok b → g a = .ok b) : items.mapM g = .ok found := by
  induction items generalizing found with
  | nil => exact ok
  | cons a rest ih =>
    rw [List.mapM_cons] at ok ⊢
    refine bind_ok_imp ok (implies a (by simp)) (fun b more => ?_)
    exact bind_ok_imp more (fun bs others => ih others (fun a member => implies a (by simp [member]))) (fun _ done => done)

theorem mapM_ok {f : α → Except ε β} {items : List α} (each : ∀ a ∈ items, ∃ b, f a = .ok b) :
    ∃ found, items.mapM f = .ok found := by
  induction items with
  | nil => exact ⟨[], rfl⟩
  | cons a rest ih =>
    obtain ⟨⟨b, first⟩, others⟩ := List.forall_mem_cons.mp each
    obtain ⟨found, later⟩ := ih others
    exact ⟨b :: found, by rw [List.mapM_cons, first, later]; rfl⟩

theorem mapM_ok_found {f : α → Except ε β} {items : List α} {found : List β} (ok : items.mapM f = .ok found) {a : α}
    (member : a ∈ items) : ∃ b ∈ found, f a = .ok b := by
  induction items generalizing found with
  | nil => cases member
  | cons first rest ih =>
    rw [List.mapM_cons] at ok
    obtain ⟨b, here, ok⟩ := bind_ok ok
    obtain ⟨bs, others, ok⟩ := bind_ok ok
    cases ok
    obtain rfl | member := List.mem_cons.mp member
    · exact ⟨b, List.mem_cons_self, here⟩
    · obtain ⟨c, inside, there⟩ := ih others member
      exact ⟨c, List.mem_cons_of_mem _ inside, there⟩

theorem mapM_ok_mem {f : α → Except ε β} {items : List α} {found : List β} (ok : items.mapM f = .ok found) {a : α}
    (member : a ∈ items) : ∃ b, f a = .ok b := by
  obtain ⟨b, -, here⟩ := mapM_ok_found ok member
  exact ⟨b, here⟩

/-- Every item of what a list comes to is what some item of the list comes to. -/
theorem mapM_ok_origin {f : α → Except ε β} {items : List α} {found : List β} (ok : items.mapM f = .ok found) {b : β}
    (member : b ∈ found) : ∃ a ∈ items, f a = .ok b := by
  induction items generalizing found with
  | nil =>
    cases ok
    cases member
  | cons first rest ih =>
    rw [List.mapM_cons] at ok
    obtain ⟨c, here, ok⟩ := bind_ok ok
    obtain ⟨bs, others, ok⟩ := bind_ok ok
    cases ok
    obtain rfl | member := List.mem_cons.mp member
    · exact ⟨first, List.mem_cons_self, here⟩
    · obtain ⟨a, inside, there⟩ := ih others member
      exact ⟨a, List.mem_cons_of_mem _ inside, there⟩

end Workflow.Fallible
