import Workflow.Script.Act

/-! Heaps that grow. What only adds to a heap leaves every object that was there as it was. -/

namespace Workflow.Script

theorem get_result (s : σ) : (get : EStateM ε σ σ) s = .ok s s := rfl

theorem set_result (s s' : σ) : (set s' : EStateM ε σ PUnit) s = .ok ⟨⟩ s' := rfl

/-- Every object of a heap is still there, as it was. -/
def Heap.Extends (h h' : Heap) : Prop :=
  ∀ (a : Addr) (o : Object), h.objects[a]? = some o → h'.objects[a]? = some o

namespace Heap.Extends
variable {h h' h'' : Heap}

theorem refl (h : Heap) : h.Extends h := fun _ _ found => found

theorem trans (first : h.Extends h') (second : h'.Extends h'') : h.Extends h'' :=
  fun a o found => second a o (first a o found)

theorem alloc (h : Heap) (o : Object) : h.Extends (h.alloc o).2 := by
  intro a o' found
  obtain ⟨inside, -⟩ := Array.getElem?_eq_some_iff.mp found
  rw [Heap.alloc, Array.getElem?_push_lt inside]
  rw [Array.getElem?_eq_getElem inside] at found
  exact found

end Heap.Extends

theorem Heap.object_of_getElem? {h : Heap} {a : Addr} {o : Object} (found : h.objects[a]? = some o) :
    h.object a = o := by
  rw [Heap.object, found]
  rfl

theorem Heap.alloc_found (h : Heap) (o : Object) : (h.alloc o).2.objects[h.objects.size]? = some o :=
  Array.getElem?_push_size

theorem Act.newList_eq (items : Array Value) (h : Heap) :
    Act.newList items h = .ok (.ref h.objects.size) (h.alloc (.list items)).2 := rfl

theorem Act.newDict_eq (entries : Entries) (h : Heap) :
    Act.newDict entries h = .ok (.ref h.objects.size) (h.alloc (.dict entries)).2 := rfl

/-- An act comes to something and only adds to the heap, or it stops in writing one of some values. -/
def Act.Writes (texts : Value → Heap → Prop) (act : Act α) (h : Heap) (told : α → Heap → Prop) : Prop :=
  (∃ a h', act h = .ok a h' ∧ h.Extends h' ∧ told a h') ∨
    ∃ v h₁ stop h', texts v h₁ ∧ Act.plain v h₁ = .error stop h' ∧ act h = .error stop h'

namespace Act.Writes
variable {texts : Value → Heap → Prop} {act : Act α} {h : Heap} {told : α → Heap → Prop}

theorem pure {a : α} (holds : told a h) : Writes texts (Pure.pure a) h told := .inl ⟨a, h, rfl, .refl h, holds⟩

theorem mono (writes : Writes texts act h told) {others : Value → Heap → Prop}
    {other : α → Heap → Prop} (covers : ∀ v h₁, texts v h₁ → others v h₁)
    (implies : ∀ a h', h.Extends h' → told a h' → other a h') :
    Writes others act h other := by
  obtain ⟨a, h', ran, grows, holds⟩ | ⟨v, h₁, stop, h', text, stopped, ran⟩ := writes
  · exact .inl ⟨a, h', ran, grows, implies a h' grows holds⟩
  · exact .inr ⟨v, h₁, stop, h', covers v h₁ text, stopped, ran⟩

theorem bind {k : α → Act β} {other : β → Heap → Prop} (first : Writes texts act h told)
    (rest : ∀ a h', h.Extends h' → told a h' → Writes texts (k a) h' other) :
    Writes texts (act >>= k) h other := by
  obtain ⟨a, h', ran, grows, holds⟩ | ⟨v, h₁, stop, h', text, stopped, ran⟩ := first
  · have same : (act >>= k) h = k a h' := by simp only [Bind.bind, EStateM.bind, ran]
    obtain ⟨b, h'', next, more, after⟩ | ⟨v, h₁, stop, h'', text, stopped, next⟩ := rest a h' grows holds
    · exact .inl ⟨b, h'', same.trans next, grows.trans more, after⟩
    · exact .inr ⟨v, h₁, stop, h'', text, stopped, same.trans next⟩
  · exact .inr ⟨v, h₁, stop, h', text, stopped, by simp only [Bind.bind, EStateM.bind, ran]⟩

theorem get : Writes texts MonadState.get h (fun found h' => h = found ∧ h = h') := .inl ⟨h, h, rfl, .refl h, rfl, rfl⟩

theorem newList (items : Array Value) :
    Writes texts (Act.newList items) h (fun v h' => ∃ a, v = .ref a ∧ h'.objects[a]? = some (.list items)) :=
  .inl ⟨_, _, newList_eq items h, .alloc h _, _, rfl, h.alloc_found _⟩

theorem newDict (entries : Entries) :
    Writes texts (Act.newDict entries) h (fun v h' => ∃ a, v = .ref a ∧ h'.objects[a]? = some (.dict entries)) :=
  .inl ⟨_, _, newDict_eq entries h, .alloc h _, _, rfl, h.alloc_found _⟩

theorem plain {v : Value} (text : texts v h) : Writes texts (Act.plain v) h (fun _ _ => True) := by
  cases ran : Act.plain v h with
  | error stop h' => exact .inr ⟨v, h, stop, h', text, ran, ran⟩
  | ok s h' =>
    refine .inl ⟨s, h', ran, ?_, trivial⟩
    cases written : v.plain h with
    | ok s' =>
      simp only [Act.plain, rendered, Bind.bind, EStateM.bind, get_result, written] at ran
      cases ran
      exact .refl h
    | error fault =>
      simp only [Act.plain, rendered, Bind.bind, EStateM.bind, get_result, written] at ran
      cases fault <;> cases ran

end Act.Writes

end Workflow.Script
