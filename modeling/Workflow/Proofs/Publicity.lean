import Workflow.Proofs.Keeping
import Workflow.Proofs.Offences
import Workflow.Script.Evaluator

/-! Code that goes to no private attribute, and acts that do the same on every heap whose code is such code, whatever would
come of going to a private attribute. -/

namespace Workflow.Script

/-- A name that starts with an underscore. -/
def Private (name : String) : Prop := ∃ rest, name.toList = '_' :: rest

/-- No expression in the tree of a node goes to a private attribute. -/
def Node.Public (n : Node) : Prop := ∀ object name, n.Within (.expr (.attribute object name)) → ¬Private name

theorem Node.Public.below {n : Node} (clean : n.Public) : ∀ part ∈ n.children, part.Public :=
  fun _ below object name inside => clean object name (.head below inside)

@[grind →] theorem Node.Public.attribute {object : Expr} {name : String}
    (clean : Node.Public (.expr (.attribute object name))) : ¬Private name :=
  clean object name .refl

/-- What a source compiles to goes to no private attribute. -/
theorem compile_public {source : String} {p : Program} (accepted : compile source = .ok p) : Node.Public (.program p) := by
  intro object name inside ⟨rest, starts⟩
  obtain ⟨o, offends⟩ := Offence.exists_first?_iff.mpr ⟨_, _, inside, .dotted starts⟩
  unfold compile at accepted
  dsimp only at accepted
  split at accepted
  · cases accepted
  · split at accepted
    · cases accepted
    · split at accepted
      · cases accepted
      · next found parsed =>
        split at accepted
        · cases accepted
        · next clear =>
          split at accepted
          · cases accepted
            rw [offends] at clear
            cases clear
          · cases accepted

def Body.Public : Body → Prop
  | .expression e => Node.Public (.expr e)
  | .block stmts => ∀ s ∈ stmts, Node.Public (.stmt s)

structure Generator.Public (g : Generator) : Prop where
  element : Node.Public (.expr g.element)
  value : ∀ e ∈ g.value.toList, Node.Public (.expr e)
  clauses : ∀ c ∈ g.clauses, Node.Public (.clause c)

/-- The code that an object holds is public. Only functions and comprehensions under way hold any. -/
def Object.Public (o : Object) : Prop :=
  (∀ f, o = .function f → f.body.Public) ∧ ∀ g, o = .iterator (.generator g) → g.Public

theorem Object.public_list (items : Array Value) : Object.Public (.list items) := by
  constructor
  · intro f same
    cases same
  · intro g same
    cases same

/-- All code on a heap is public. What is bound to a name or given from outside holds no code, or only a source. -/
def Heap.Public (h : Heap) : Prop := ∀ a, (h.object a).Public

namespace Heap.Public
variable {h : Heap} {o : Object}

theorem alloc (clean : h.Public) (code : o.Public) : (h.alloc o).2.Public := by
  intro a
  rw [Heap.alloc, Heap.object, Array.getElem?_push]
  split
  · exact code
  · exact clean a

theorem write (clean : h.Public) (a : Addr) (code : o.Public) : (h.write a o).Public := by
  intro b
  rw [Heap.write, Heap.object, Array.getElem?_setIfInBounds]
  split
  · split
    · exact code
    · exact Object.public_list #[]
  · exact clean b

theorem handling (clean : h.Public) (errors : List Value) : Heap.Public { h with handling := errors } := clean

end Heap.Public

/-- What an act comes to, if it does not stop. -/
def Gives (told : α → Prop) (act : Act α) : Prop := ∀ h a h', act h = .ok a h' → told a

namespace Gives
variable {told : α → Prop}

@[grind ←] theorem pure {a : α} (holds : told a) : Gives told (Pure.pure a : Act α) := by
  intro h a' h' ran
  cases ran
  exact holds

@[grind ←] theorem bind {act : Act β} {k : β → Act α} (rest : ∀ b, Gives told (k b)) : Gives told (act >>= k) := by
  intro h a h' ran
  simp only [Bind.bind, EStateM.bind] at ran
  split at ran
  · exact rest _ _ _ _ ran
  · cases ran

theorem raise (error : Value) : Gives told (Act.raise error) := by
  intro h a h' ran
  cases ran

end Gives

/-- Two acts do the same on every heap of public code, and leave such a heap. -/
def Agree (act other : Act α) : Prop := ∀ h : Heap, h.Public → act h = other h ∧ (leftBy (act h)).Public

/-- An act leaves a heap of public code if it starts with one. -/
abbrev Steady (act : Act α) : Prop := Agree act act

namespace Agree
variable {act other : Act α} {k l : α → Act β}

@[grind ←] theorem pure (a : α) : Steady (Pure.pure a : Act α) := fun _ clean => ⟨rfl, clean⟩

@[grind ←] theorem throw (stop : Stop) : Steady (throw stop : Act α) := fun _ clean => ⟨rfl, clean⟩

/-- What comes to a value goes on from there, and what stops has stopped. -/
theorem bind_of {told : α → Prop} (first : Agree act other) (tells : Gives told act)
    (rest : ∀ a, told a → Agree (k a) (l a)) : Agree (act >>= k) (other >>= l) := by
  intro h clean
  obtain ⟨same, left⟩ := first h clean
  simp only [Bind.bind, EStateM.bind, ← same]
  cases ran : act h with
  | ok a h' =>
    rw [ran] at left
    exact rest a (tells h a h' ran) h' left
  | error stop h' =>
    rw [ran] at left
    exact ⟨rfl, left⟩

@[grind ←] theorem bind (first : Agree act other) (rest : ∀ a, Agree (k a) (l a)) : Agree (act >>= k) (other >>= l) := by
  have anything : Gives (fun _ => True) act := fun _ _ _ _ => trivial
  exact first.bind_of anything (fun a _ => rest a)

@[grind ←] theorem map (f : α → β) (first : Agree act other) : Agree (f <$> act) (f <$> other) := by
  rw [map_eq_pure_bind, map_eq_pure_bind]
  exact first.bind (fun a => .pure (f a))

@[grind ←] theorem get {k l : Heap → Act β} (rest : ∀ h : Heap, h.Public → Agree (k h) (l h)) :
    Agree (MonadState.get >>= k) (MonadState.get >>= l) :=
  fun h clean => rest h clean h clean

@[grind ←] theorem object {k l : Object → Act β} (a : Addr) (rest : ∀ o : Object, o.Public → Agree (k o) (l o)) :
    Agree (Act.object a >>= k) (Act.object a >>= l) :=
  fun h clean => rest (h.object a) (clean a) h clean

theorem ite {test : Prop} [Decidable test] {act' other' : Act α} (yes : Agree act other) (no : Agree act' other') :
    Agree (if test then act else act') (if test then other else other') := by
  split
  · exact yes
  · exact no

@[grind ←] theorem mapM {f g : α → Act β} {items : List α} (each : ∀ a ∈ items, Agree (f a) (g a)) :
    Agree (items.mapM f) (items.mapM g) := by
  induction items with
  | nil => exact .pure []
  | cons a rest ih =>
    obtain ⟨first, others⟩ := List.forall_mem_cons.mp each
    rw [List.mapM_cons, List.mapM_cons]
    exact first.bind (fun b => (ih others).bind (fun bs => .pure (b :: bs)))

@[grind ←] theorem forM {f g : α → Act PUnit} {items : List α} (each : ∀ a ∈ items, Agree (f a) (g a)) :
    Agree (items.forM f) (items.forM g) := by
  induction items with
  | nil => exact .pure _
  | cons a rest ih =>
    obtain ⟨first, others⟩ := List.forall_mem_cons.mp each
    exact first.bind (fun _ => ih others)

@[grind ←] theorem attempt (first : Agree act other) : Agree (Act.attempt act) (Act.attempt other) := by
  intro h clean
  obtain ⟨same, left⟩ := first h clean
  rw [Act.attempt, Act.attempt, ← same]
  cases ran : act h <;> rw [ran] at left <;> exact ⟨rfl, left⟩

end Agree

@[grind ←] theorem Act.typeName_steady (v : Value) : Steady (Act.typeName v) := fun _ clean => ⟨rfl, clean⟩

@[grind ←] theorem Act.truth_steady (v : Value) : Steady (Act.truth v) := fun _ clean => ⟨rfl, clean⟩

@[grind ←] theorem Act.alloc_steady {o : Object} (code : o.Public) : Steady (Act.alloc o) :=
  fun _ clean => ⟨rfl, clean.alloc code⟩

@[grind ←] theorem Act.write_steady {o : Object} (a : Addr) (code : o.Public) : Steady (Act.write a o) :=
  fun _ clean => ⟨rfl, clean.write a code⟩

attribute [grind =] Object.Public

end Workflow.Script
