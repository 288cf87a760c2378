import Workflow.Proofs.Relocations
import Workflow.Proofs.Trees

/-! Work that is done again in another world, behind what is there already. It comes to the same as before, and it makes
its objects anew. Of work that failed before, nothing is asked. -/

namespace Workflow
open Script (Act Addr Entries Heap Object Renaming Value)

/-- Whatever some work comes to, another piece of work comes to as well. -/
def Follows {ε : Type} (R : Renaming → σ → τ → Prop) (f : Renaming) (like : Renaming → α → β → Prop) (x : EStateM ε σ α)
    (y : EStateM ε τ β) : Prop :=
  ∀ v w a v', R f v w → x v = .ok a v' → ∃ g b w', f.Within g ∧ y w = .ok b w' ∧ like g a b ∧ R g v' w'

namespace Follows
variable {ε : Type} {R : Renaming → σ → τ → Prop} {f : Renaming} {like : Renaming → α → β → Prop}
  {alike : Renaming → γ → δ → Prop}

theorem pure {a : α} {b : β} (values : like f a b) :
    Follows R f like (Pure.pure a : EStateM ε σ α) (Pure.pure b : EStateM ε τ β) := by
  intro v w a' v' worlds ran
  cases ran
  exact ⟨f, b, w, .refl f, rfl, values, worlds⟩

theorem bind {x : EStateM ε σ α} {y : EStateM ε τ β} {k : α → EStateM ε σ γ} {l : β → EStateM ε τ δ}
    (first : Follows R f like x y) (rest : ∀ g a b, f.Within g → like g a b → Follows R g alike (k a) (l b)) :
    Follows R f alike (x >>= k) (y >>= l) := by
  intro v w c v' worlds ran
  simp only [Bind.bind, EStateM.bind] at ran ⊢
  cases begun : x v with
  | error e v₁ =>
    rw [begun] at ran
    cases ran
  | ok a v₁ =>
    rw [begun] at ran
    obtain ⟨g, b, w₁, within, same, values, worlds⟩ := first v w a v₁ worlds begun
    obtain ⟨k', d, w', more, same', values', worlds'⟩ := rest g a b within values v₁ w₁ c v' worlds ran
    exact ⟨k', d, w', within.trans more, by rw [same]; exact same', values', worlds'⟩

/-- Two pieces of work that come to the same follow one another. -/
theorem of_alike {miss : Renaming → ε → ε → Prop} {x : EStateM ε σ α} {y : EStateM ε τ β} (same : Akin R miss f like x y) :
    Follows R f like x y := by
  intro v w a v' worlds ran
  have carried := same v w worlds
  rw [ran] at carried
  generalize y w = ended at carried
  cases carried with
  | ok within values worlds => exact ⟨_, _, _, within, rfl, values, worlds⟩

/-- Of work that never comes to something, nothing is asked. -/
theorem never {x : EStateM ε σ α} {y : EStateM ε τ β} (fails : ∀ v a v', x v ≠ .ok a v') : Follows R f like x y :=
  fun v _ a v' _ ran => absurd ran (fails v a v')

end Follows

namespace Script

/-- A heap in which something is done again, behind what was there before, and the heap in which it was done first. -/
structure Heap.Behind (start base : Heap) (f : Renaming) (h h' : Heap) : Prop where
  renamed : h.Renamed f h'
  apart : ∀ a, f.domain a → base.objects.size ≤ f.map a
  kept : base.Extends h'
  grown : start.Extends h

variable {start base : Heap} {f : Renaming}

namespace Heap.Behind
variable {h h' : Heap} (behind : Heap.Behind start base f h h')
include behind

/-- An object that is made in both heaps. -/
theorem alloc {o : Object} (covers : f.CoversObject o) :
    ∃ g : Renaming, f.Within g ∧ (∀ a, g.domain a ↔ f.domain a ∨ a = h.objects.size) ∧
      g.map h.objects.size = h'.objects.size ∧
      Heap.Behind start base g (h.alloc o).2 (h'.alloc (o.rename f.map)).2 := by
  obtain ⟨g, within, domain, new, renamed⟩ := behind.renamed.alloc covers
  refine ⟨g, within, domain, new, renamed, fun a there => ?_, behind.kept.trans (.alloc h' _), behind.grown.trans (.alloc h _)⟩
  obtain there | rfl := (domain a).mp there
  · rw [(within a there).2]
    exact behind.apart a there
  · rw [new]
    exact behind.kept.size_le

/-- An object that is written in both heaps, apart from what was there at the start. -/
theorem write {a : Addr} {o : Object} (there : f.domain a) (new : start.objects.size ≤ a) (covers : f.CoversObject o) :
    Heap.Behind start base f (h.write a o) (h'.write (f.map a) (o.rename f.map)) := by
  have spared {old k : Heap} {b : Addr} {p : Object} (kept : old.Extends k) (outside : old.objects.size ≤ b) :
      old.Extends (k.write b p) := by
    intro c o' found
    have inside := (Array.getElem?_eq_some_iff.mp found).1
    have apart : b ≠ c := fun same => absurd inside (by rw [← same]; exact Nat.not_lt.mpr outside)
    rw [Heap.write, Array.getElem?_setIfInBounds_ne apart]
    exact kept c o' found
  exact ⟨behind.renamed.write there covers, behind.apart, spared behind.kept (behind.apart a there), spared behind.grown new⟩

/-- What has been made up to now may be taken for what was there at the start. -/
theorem begin : Heap.Behind h base f h h' := ⟨behind.renamed, behind.apart, behind.kept, .refl h⟩

end Heap.Behind

theorem Heap.Behind.housing (start base : Heap) : Heap.Housing (Heap.Behind start base) where
  renamed := renamed
  made behind covers := behind.alloc covers

/-- Acts that follow one another in two heaps. -/
abbrev Act.Follows (start base : Heap) (f : Renaming) (like : Renaming → α → β → Prop) (x : Act α) (y : Act β) : Prop :=
  Workflow.Follows (Heap.Behind start base) f like x y

/-- Acts that come to the same in two heaps, or fail alike. -/
abbrev Act.Repeats (start base : Heap) (f : Renaming) (like : Renaming → α → β → Prop) (x : Act α) (y : Act β) : Prop :=
  Akin (Heap.Behind start base) Stop.Sent f like x y

theorem Act.Repeats.write {a : Addr} {o : Object} (there : f.domain a) (new : start.objects.size ≤ a) (covers : f.CoversObject o) :
    Act.Repeats start base f Whatever (Act.write a o) (Act.write (f.map a) (o.rename f.map)) :=
  fun _ _ behind => .ok (.refl f) trivial (behind.write there new covers)

namespace Act.Follows
variable {like : Renaming → α → β → Prop}

theorem fail (c : ErrorClass) (message : String) (y : Act β) : Follows start base f like (Act.fail c message : Act α) y :=
  .never (fun _ _ _ ran => by cases ran)

theorem get : Follows start base f (Heap.Behind start base) (MonadState.get : Act Heap) MonadState.get :=
  fun h h' _ _ behind ran => by
    cases ran
    exact ⟨f, h', h', .refl f, rfl, behind, behind⟩

end Act.Follows

/-! Acts that are about texts and numbers only. -/

/-- An act that comes to something leaves the heap as it is, and does so in every heap. -/
def Act.Still (x : Act α) : Prop := ∀ h a k, x h = .ok a k → k = h ∧ ∀ h', x h' = .ok a h'

namespace Act.Still

theorem pure (a : α) : Still (Pure.pure a : Act α) := by
  intro h b k ran
  cases ran
  exact ⟨rfl, fun _ => rfl⟩

theorem fail (c : ErrorClass) (message : String) : Still (Act.fail c message : Act α) := by
  intro h b k ran
  cases ran

theorem bind {x : Act α} {k : α → Act β} (first : Still x) (rest : ∀ a, Still (k a)) : Still (x >>= k) := by
  intro h b k' ran
  simp only [Bind.bind, EStateM.bind] at ran ⊢
  cases begun : x h with
  | error e h₁ =>
    rw [begun] at ran
    cases ran
  | ok a h₁ =>
    rw [begun] at ran
    obtain ⟨rfl, again⟩ := first h a h₁ begun
    obtain ⟨same, others⟩ := rest a h₁ b k' ran
    exact ⟨same, fun h' => by rw [again h']; exact others h'⟩

theorem mapM {k : α → Act β} (each : ∀ a, Still (k a)) (items : List α) : Still (items.mapM k) := by
  induction items with
  | nil => exact pure []
  | cons a rest ih =>
    rw [List.mapM_cons]
    exact bind (each a) (fun _ => bind ih (fun _ => pure _))

theorem follows {x : Act α} (still : Still x) :
    Act.Follows start base f (fun _ a b => b = a) x x := by
  intro h h' a k behind ran
  obtain ⟨rfl, again⟩ := still h a k ran
  exact ⟨f, a, h', .refl f, again h', rfl, behind⟩

end Act.Still

end Script

end Workflow
