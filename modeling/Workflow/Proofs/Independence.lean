import Workflow.Proofs.Raising
import Workflow.Proofs.Reasons
import Workflow.Proofs.Registrations
import Workflow.Proofs.Sharing

/-! What the registration of a schema depends on: the objects that it is made of, the steps that are registered, and nothing
else in the world. So a schema is stored or refused for the same reason among others as alone. -/

namespace Workflow
open Engine (Work)
open Script (Act Addr Heap Stop Value)

/-- The states in which some work is looked at, how it may change them, and the faults that are told apart. -/
structure Setting (ε σ : Type) where
  holds : σ → Prop
  grows : σ → σ → Prop
  known : ε → Prop
  other : ε → Prop

namespace Setting
variable {ε σ α β : Type}

/-- What happens in a setting leads to where it holds. -/
structure Lawful (s : Setting ε σ) : Prop extends Lasting s.grows where
  keeps : ∀ {w w'}, s.holds w → s.grows w w' → s.holds w'

/-- Some work comes to the same wherever a setting holds: to one value, to one known fault, or to some other fault. -/
def Determined (s : Setting ε σ) (told : α → Prop) (x : EStateM ε σ α) : Prop :=
  (∃ a, told a ∧ ∀ w, s.holds w → ∃ w', x w = .ok a w' ∧ s.grows w w') ∨
  (∃ f, s.known f ∧ ∀ w, s.holds w → ∃ w', x w = .error f w' ∧ s.grows w w') ∨
  ∀ w, s.holds w → ∃ f w', x w = .error f w' ∧ s.other f ∧ s.grows w w'

namespace Determined
variable {s : Setting ε σ} {told : α → Prop} {after : β → Prop}

/-- What comes out in one state comes out in every other. -/
theorem alike {x : EStateM ε σ α} {a : α} {w w' w'' : σ} (determined : s.Determined told x) (here : s.holds w)
    (there : s.holds w') (ran : x w' = .ok a w'') : ∃ w₁, x w = .ok a w₁ := by
  obtain ⟨b, -, runs⟩ | ⟨f, -, fails⟩ | fails := determined
  · obtain ⟨_, same, -⟩ := runs w' there
    cases same.symm.trans ran
    obtain ⟨w₁, goes, -⟩ := runs w here
    exact ⟨w₁, goes⟩
  · obtain ⟨_, failed, -⟩ := fails w' there
    cases failed.symm.trans ran
  · obtain ⟨_, _, failed, -⟩ := fails w' there
    cases failed.symm.trans ran

/-- What is looked up may be different everywhere, if what comes of it is the same. -/
theorem get (w₀ : σ) {k : σ → EStateM ε σ α} (determined : s.Determined told (k w₀))
    (same : ∀ w, s.holds w → k w = k w₀) : s.Determined told (MonadState.get >>= k) := by
  have looked (w) (here : s.holds w) : (MonadState.get >>= k) w = k w₀ w := by
    rw [← same w here]
    rfl
  obtain ⟨a, holds, runs⟩ | ⟨f, known, fails⟩ | fails := determined
  · exact .inl ⟨a, holds, fun w here => looked w here ▸ runs w here⟩
  · exact .inr (.inl ⟨f, known, fun w here => looked w here ▸ fails w here⟩)
  · exact .inr (.inr (fun w here => looked w here ▸ fails w here))

variable (lawful : s.Lawful)
include lawful

theorem pure {a : α} (holds : told a) : s.Determined told (Pure.pure a : EStateM ε σ α) :=
  .inl ⟨a, holds, fun w _ => ⟨w, rfl, lawful.refl w⟩⟩

theorem bind {x : EStateM ε σ α} {k : α → EStateM ε σ β} (first : s.Determined told x)
    (rest : ∀ a, told a → s.Determined after (k a)) : s.Determined after (x >>= k) := by
  obtain ⟨a, holds, runs⟩ | ⟨f, known, fails⟩ | fails := first
  · -- In every state the work goes on with the same value.
    have onward (w) (here : s.holds w) : ∃ w', (x >>= k) w = k a w' ∧ s.holds w' ∧ s.grows w w' := by
      obtain ⟨w', ran, grows⟩ := runs w here
      exact ⟨w', Work.ok_bind ran, lawful.keeps here grows, grows⟩
    obtain ⟨b, holds, goes⟩ | ⟨f, known, fails⟩ | fails := rest a holds
    · refine .inl ⟨b, holds, fun w here => ?_⟩
      obtain ⟨w', same, there, grows⟩ := onward w here
      obtain ⟨w'', ran, more⟩ := goes w' there
      exact ⟨w'', same.trans ran, lawful.trans grows more⟩
    · refine .inr (.inl ⟨f, known, fun w here => ?_⟩)
      obtain ⟨w', same, there, grows⟩ := onward w here
      obtain ⟨w'', ran, more⟩ := fails w' there
      exact ⟨w'', same.trans ran, lawful.trans grows more⟩
    · refine .inr (.inr (fun w here => ?_))
      obtain ⟨w', same, there, grows⟩ := onward w here
      obtain ⟨f, w'', ran, other, more⟩ := fails w' there
      exact ⟨f, w'', same.trans ran, other, lawful.trans grows more⟩
  · refine .inr (.inl ⟨f, known, fun w here => ?_⟩)
    obtain ⟨w', ran, grows⟩ := fails w here
    exact ⟨w', Work.error_bind ran, grows⟩
  · refine .inr (.inr (fun w here => ?_))
    obtain ⟨f, w', ran, other, grows⟩ := fails w here
    exact ⟨f, w', Work.error_bind ran, other, grows⟩

end Determined

end Setting

namespace Script
variable {S : Addr → Prop} {h : Heap}

/-- Heaps that have some objects in common. Acts that stop are not told apart. -/
def reading (S : Addr → Prop) (h : Heap) : Setting Stop Heap where
  holds := h.Shares S
  grows := Heap.Extends
  known _ := False
  other _ := True

theorem reading_lawful : (reading S h).Lawful where
  refl := .refl
  trans := .trans
  keeps shares grows := shares.grown (.refl _) grows

namespace Act

theorem raised_determined {told : α → Prop} {act : Act α} (stops : ∀ k, ∃ stop k', act k = .error stop k' ∧ k.Extends k') :
    (reading S h).Determined told act := by
  refine .inr (.inr (fun k _ => ?_))
  obtain ⟨stop, k', ran, grows⟩ := stops k
  exact ⟨stop, k', ran, trivial, grows⟩

theorem fail_determined {told : α → Prop} (c : ErrorClass) (message : String) :
    (reading S h).Determined told (fail c message : Act α) := raised_determined (fun k => ⟨_, _, rfl, .alloc k _⟩)

theorem rendered_determined {write : Heap → Except RenderFault String} (same : ∀ k, h.Shares S k → write k = write h) :
    (reading S h).Determined (fun _ => True) (rendered write) := by
  refine .get h ?_ (fun k shares => by rw [same k shares])
  split
  · exact .pure reading_lawful trivial
  · exact fail_determined _ _
  · exact fail_determined _ _

theorem plain_determined {v : Value} (among : v.Among S) : (reading S h).Determined (fun _ => True) (plain v) :=
  rendered_determined (fun _ shares => shares.plain among)

theorem quoted_determined {v : Value} (among : v.Among S) : (reading S h).Determined (fun _ => True) (quoted v) :=
  rendered_determined (fun _ shares => shares.quoted among)

theorem checkKey_determined {v : Value} (among : v.Among S) : (reading S h).Determined (fun _ => True) (checkKey v) := by
  refine .get h ?_ (fun k shares => by rw [shares.unhashable? among])
  split
  · exact fail_determined _ _
  · exact .pure reading_lawful trivial

theorem ordered_determined {test : OrderTest} {v w : Value} (left : v.Among S) (right : w.Among S) :
    (reading S h).Determined (fun _ => True) (ordered test v w) := by
  refine .get h ?_ (fun k shares => by rw [shares.ordered test left right])
  split
  · exact .pure reading_lawful trivial
  · exact fail_determined _ _
  · exact fail_determined _ _

end Act

/-! Sorting. -/

/-- The keys and the values of a row of pairs are among some objects. -/
def PairsAmong (S : Addr → Prop) (pairs : List (Value × Value)) : Prop := ∀ pair ∈ pairs, pair.1.Among S ∧ pair.2.Among S

theorem placeFor_determined {key : Value} {items : Array (Value × Value)} (among : key.Among S)
    (pairs : PairsAmong S items.toList) (steps low high : Nat) :
    (reading S h).Determined (fun _ => True) (placeFor key items steps low high) := by
  induction steps generalizing low high with
  | zero => exact .pure reading_lawful trivial
  | succ steps ih =>
    rw [placeFor]
    split
    · dsimp only
      split
      · next other v there =>
        have member := Array.mem_toList_iff.mpr (Array.mem_of_getElem? there)
        refine (Act.ordered_determined among (pairs _ member).1).bind reading_lawful (fun answer _ => ?_)
        cases answer with
        | true => exact ih low _
        | false => exact ih _ high
      · exact .pure reading_lawful trivial
    · exact .pure reading_lawful trivial

theorem insertSorted_determined {items : List (Value × Value)} {sorted : Array (Value × Value)}
    (pairs : PairsAmong S (items ++ sorted.toList)) :
    (reading S h).Determined (fun found => PairsAmong S found.toList) (insertSorted items sorted) := by
  induction items generalizing sorted with
  | nil => exact .pure reading_lawful pairs
  | cons item rest ih =>
    obtain ⟨key, v⟩ := item
    rw [insertSorted]
    obtain ⟨first, others⟩ := List.forall_mem_cons.mp pairs
    have there : PairsAmong S sorted.toList := fun pair member => others pair (List.mem_append_right _ member)
    refine (placeFor_determined first.1 there _ _ _).bind reading_lawful (fun place _ => ih (fun pair member => ?_))
    have same := ((insertAt_perm (key, v) sorted place).append_left rest).trans List.perm_middle
    exact pairs pair (same.mem_iff.mp member)

theorem sortValues_determined {m : Machine} {values : List Value} (among : ∀ v ∈ values, v.Among S) :
    (reading S h).Determined (fun found => ∀ v ∈ found.toList, v.Among S) (sortValues m .nothing false values) := by
  have paired : (reading S h).Determined (fun pairs => PairsAmong S pairs) (keyed m .nothing values) := by
    refine .inl ⟨values.map (fun v => (v, v)), fun pair member => ?_, fun k _ => ⟨k, keyed_nothing m values, .refl k⟩⟩
    obtain ⟨v, inside, rfl⟩ := List.mem_map.mp member
    exact ⟨among v inside, among v inside⟩
  refine paired.bind reading_lawful (fun pairs inside => ?_)
  have sorts : (reading S h).Determined (fun found => PairsAmong S found.toList) (insertSorted pairs #[]) :=
    insertSorted_determined (by simpa using inside)
  refine sorts.bind reading_lawful (fun found told => .pure reading_lawful (fun v member => ?_))
  rw [if_neg Bool.false_ne_true, Array.toList_map] at member
  obtain ⟨pair, there, rfl⟩ := List.mem_map.mp member
  exact (told pair there).2

/-- A new list is written the same wherever it comes to lie. -/
theorem quoted_list {items : Array Value} (among : ∀ v ∈ items.toList, v.Among S) {k : Heap} (shares : h.Shares S k) :
    Value.quoted (k.alloc (.list items)).2 (.ref k.objects.size) =
      Value.quoted (h.alloc (.list items)).2 (.ref h.objects.size) := by
  have both := shares.grown (.alloc h (.list items)) (.alloc k (.list items))
  have outside (v : Value) (inside : v.Among S) (a : Addr) (reaches : (h.alloc (.list items)).2.Reaches v a) :
      [k.objects.size].contains a = [h.objects.size].contains a := by
    obtain ⟨o, left, right⟩ := shares.same a (both.reaches inside reaches)
    obtain ⟨left, -⟩ := Array.getElem?_eq_some_iff.mp left
    obtain ⟨right, -⟩ := Array.getElem?_eq_some_iff.mp right
    simp [Nat.ne_of_lt left, Nat.ne_of_lt right]
  have row : items.toList.mapM (Value.write (k.alloc (.list items)).2 899 [k.objects.size] true) =
      items.toList.mapM (Value.write (h.alloc (.list items)).2 899 [h.objects.size] true) :=
    Fallible.mapM_congr (fun v member =>
      Value.write_congr_inside (both.agrees (among v member)) 899 (outside v (among v member)) true)
  have unfolded (k : Heap) : Value.quoted (k.alloc (.list items)).2 (.ref k.objects.size) =
      Object.write (k.alloc (.list items)).2 k.objects.size (Value.write (k.alloc (.list items)).2 899 [k.objects.size]) true
        (.list items) := by
    rw [Value.quoted, show depthLimit = 899 + 1 from rfl, Value.write, if_neg (by simp),
      Heap.object_of_getElem? (k.alloc_found _)]
  rw [unfolded, unfolded, Object.write, row, Object.write]

theorem listed_determined {items : Array Value} (among : ∀ v ∈ items.toList, v.Among S) :
    (reading S h).Determined (fun _ => True) (Act.newList items >>= Act.quoted) := by
  have same (k) (shares : h.Shares S k) := quoted_list among shares
  cases written : Value.quoted (h.alloc (.list items)).2 (.ref h.objects.size) with
  | ok s =>
    refine .inl ⟨s, trivial, fun k shares => ⟨(k.alloc (.list items)).2, ?_, .alloc k _⟩⟩
    rw [Work.ok_bind (Act.newList_eq items k)]
    simp only [Act.quoted, Act.rendered, Bind.bind, EStateM.bind, get_result, same k shares, written]
    rfl
  | error fault =>
    refine .inr (.inr (fun k shares => ?_))
    rw [Work.ok_bind (Act.newList_eq items k)]
    simp only [Act.quoted, Act.rendered, Bind.bind, EStateM.bind, get_result, same k shares, written]
    cases fault <;> exact ⟨_, _, rfl, trivial, .trans (.alloc k _) (.alloc _ _)⟩

end Script

/-! What is said of a flaw. -/

/-- The values that are told of in what is wrong. -/
def Cause.values : Cause → List Value
  | .notRow v => [v]
  | .notItem v => [v]
  | .stepId v => [v]
  | .notCondition v => [v]
  | .unknownMarker v => [v]
  | .mixedMarker _ keys => keys
  | .stepFields keys => keys
  | .blockFields keys => keys
  | _ => []

section
variable {S : Addr → Prop} {h k : Heap} {v w : Value}

open Script in
theorem Cause.explain_determined {cause : Cause} (among : ∀ v ∈ cause.values, v.Among S) :
    (reading S h).Determined (fun _ => True) cause.explain := by
  have told {act : Act String} (f : String → String) (determined : (reading S h).Determined (fun _ => True) act) :
      (reading S h).Determined (fun _ => True) (do return f (← act)) :=
    determined.bind reading_lawful (fun _ _ => .pure reading_lawful trivial)
  have sorted {keys : List Value} (among : ∀ v ∈ keys, v.Among S) : (reading S h).Determined (fun _ => True) (sortedText keys) :=
    (sortValues_determined among).bind reading_lawful (fun _ found => listed_determined found)
  have named (v : Value) (among : v.Among S) (f : String → String) :
      (reading S h).Determined (fun _ => True) (do return f (v.className (← get))) :=
    .get h (.pure reading_lawful trivial) (fun k shares => by rw [shares.className among])
  cases cause with
  | notRow v | notItem v | notCondition v => exact named v (among v List.mem_cons_self) _
  | stepId v => exact told _ (Act.quoted_determined (among v List.mem_cons_self))
  | unknownMarker v => exact told _ (Act.plain_determined (among v List.mem_cons_self))
  | mixedMarker _ keys | stepFields keys | blockFields keys => exact told _ (sorted among)
  | _ => exact .pure reading_lawful trivial

namespace Grammar
variable (shares : h.Shares S k)
include shares

theorem rowOf?_among {values : List Value} (opened : rowOf? h v = some values) (among : v.Among S) :
    ∀ w ∈ values, w.Among S := by
  cases v with
  | tuple items =>
    cases opened
    exact Value.Among.items among
  | ref a =>
    have parts := shares.closed a (among a List.mem_cons_self)
    simp only [rowOf?] at opened
    split at opened
    · next items found =>
      cases opened
      rw [found] at parts
      exact Value.Among.items parts
    · cases opened
  | _ => cases opened

theorem held?_among {entry field : String} {kinds : List Script.RecordKind} (held : held? h entry kinds field v = some w)
    (among : v.Among S) : w.Among S := by
  cases v with
  | ref a =>
    have parts := shares.closed a (among a List.mem_cons_self)
    simp only [held?] at held
    split at held
    · next found =>
      rw [found] at parts
      exact Value.Among.named parts held
    · next found =>
      rw [found] at parts
      split at held
      · cases held
        exact Value.Among.field parts field
      · cases held
    · cases held
  | _ => cases held

theorem markerOf?_among {signal : Signal} (held : markerOf? h signal v = some w) (among : v.Among S) : w.Among S := by
  cases v with
  | ref a =>
    have parts := shares.closed a (among a List.mem_cons_self)
    simp only [markerOf?] at held
    split at held
    · next found =>
      rw [found] at parts
      exact Value.Among.named parts held
    · next found =>
      rw [found] at parts
      split at held
      · cases held
        exact Value.Among.field parts _
      · cases held
    · cases held
  | _ => cases held

theorem Stands.among {inLoop looped : Bool} {row : Value} {position : List Nat} (stands : Stands h inLoop row position looped v)
    (among : row.Among S) : v.Among S := by
  induction stands with
  | here opened there => exact rowOf?_among shares opened among _ (List.mem_of_getElem? there)
  | inside opened there held below ih =>
    exact ih (held?_among shares held (rowOf?_among shares opened among _ (List.mem_of_getElem? there)))

theorem beside_among {a : Addr} {entries : Script.Entries} {names : List String} (found : h.object a = .dict entries)
    (among : (Value.ref a).Among S) : ∀ v ∈ entries.beside names, v.Among S := by
  have parts := shares.closed a (among a List.mem_cons_self)
  rw [found] at parts
  intro v member
  obtain ⟨entry, there, rfl⟩ := List.mem_map.mp (List.mem_of_mem_filter member)
  exact (Value.Among.entries parts entry there).1

omit shares in
theorem Untestable.among {cause : Cause} (untestable : Untestable h w cause) (among : w.Among S) :
    ∀ v ∈ cause.values, v.Among S := by
  cases untestable with
  | inert => exact List.forall_mem_singleton.mpr among
  | _ => exact nofun

/-- What is told of an item with a flaw is part of it. -/
theorem Flawed.among {inLoop : Bool} {path : Path} {cause : Cause} (flawed : Flawed h inLoop v path cause)
    (among : v.Among S) : ∀ w ∈ cause.values, w.Among S := by
  cases flawed with
  | other => exact List.forall_mem_singleton.mpr among
  | nameless => exact List.forall_mem_singleton.mpr (.plain rfl)
  | id held => exact List.forall_mem_singleton.mpr (held?_among shares held among)
  | gate held _ untestable => exact untestable.among (held?_among shares held among)
  | test held untestable => exact untestable.among (held?_among shares held among)
  | marker held untestable => exact untestable.among (markerOf?_among shares held among)
  | outside => exact nofun
  | kind found =>
    have parts := shares.closed _ (among _ List.mem_cons_self)
    rw [found] at parts
    exact List.forall_mem_singleton.mpr (Value.Among.field parts "kind")
  | mixed found => exact beside_among shares found among
  | stepFields found => exact beside_among shares found among
  | blockFields found => exact beside_among shares found among
  | shapeless => exact nofun
  | steps held => exact List.forall_mem_singleton.mpr (held?_among shares held among)

theorem FirstFlaw.among {inLoop : Bool} {path : Path} {cause : Cause} (flaw : FirstFlaw h inLoop v path cause)
    (among : v.Among S) : ∀ w ∈ cause.values, w.Among S := by
  obtain ⟨-, -, rfl⟩ | ⟨_, _, ⟨⟨_, w, stands, flawed, -⟩, -⟩, -⟩ := flaw
  · exact List.forall_mem_singleton.mpr among
  · exact flawed.among shares (stands.among shares among)

end Grammar

end

/-! Jobs. -/

/-- Some work adds to the heap, to what is known of sources and to the log, and leaves all else as it is. -/
structure World.Learns (w w' : World) : Prop where
  heap : w.heap.Extends w'.heap
  honest : w.evaluator.Honest → w'.evaluator.Honest
  registry : w'.registry = w.registry
  listeners : w'.listeners = w.listeners
  problems : w'.problems = w.problems

namespace World.Learns

theorem of_heap {w : World} {h : Heap} (grows : w.heap.Extends h) : w.Learns { w with heap := h } :=
  ⟨grows, id, rfl, rfl, rfl⟩

theorem lasting : Lasting World.Learns where
  refl w := .of_heap (.refl w.heap)
  trans first second := ⟨first.heap.trans second.heap, fun honest => second.honest (first.honest honest),
    second.registry.trans first.registry, second.listeners.trans first.listeners, second.problems.trans first.problems⟩

end World.Learns

/-- Worlds with some objects in common and with a registry of some kind. The faults of a setup are told apart from others. -/
def Job.setting (S : Addr → Prop) (h : Heap) (P : Registry → Prop) (known : Fault → Prop) : Setting Fault World where
  holds w := h.Shares S w.heap ∧ w.evaluator.Honest ∧ P w.registry
  grows := World.Learns
  known := known
  other f := f.isConfiguration = false

/-- A fault of a setup that is told alike in all heaps with some objects. -/
def Fault.ToldAlike (S : Addr → Prop) (h : Heap) (f : Fault) : Prop :=
  f.isConfiguration = true ∧ ∀ k, h.Shares S k → f.message k = f.message h

namespace Job
variable {S : Addr → Prop} {h : Heap} {P : Registry → Prop} {K : Fault → Prop}

/-- Some work comes to the same wherever there are some objects, and so do the faults of a setup. -/
abbrev Alike (S : Addr → Prop) (h : Heap) (P : Registry → Prop) (x : Job α) : Prop :=
  (Job.setting S h P (Fault.ToldAlike S h)).Determined (fun _ => True) x

theorem setting_lawful : (Job.setting S h P K).Lawful where
  refl := World.Learns.lasting.refl
  trans := World.Learns.lasting.trans
  keeps := by
    rintro w w' ⟨shares, honest, registry⟩ learns
    exact ⟨shares.grown (.refl _) learns.heap, learns.honest honest, by rwa [learns.registry]⟩

theorem act_determined {told : α → Prop} {act : Act α} (determined : (Script.reading S h).Determined told act) :
    (Job.setting S h P K).Determined told (Job.act act) := by
  obtain ⟨a, holds, runs⟩ | ⟨_, impossible, -⟩ | fails := determined
  · refine .inl ⟨a, holds, fun w here => ?_⟩
    obtain ⟨k, ran, grows⟩ := runs w.heap here.1
    exact ⟨{ w with heap := k }, by rw [Job.act, ran], .of_heap grows⟩
  · cases impossible
  · refine .inr (.inr (fun w here => ?_))
    obtain ⟨stop, k, ran, -, grows⟩ := fails w.heap here.1
    exact ⟨.stopped stop, { w with heap := k }, by rw [Job.act, ran], rfl, .of_heap grows⟩

theorem fail_known {told : α → Prop} {f : Fault} (known : K f) :
    (Job.setting S h P K).Determined told (Job.fail f : Job α) :=
  .inr (.inl ⟨f, known, fun w _ => ⟨w, rfl, World.Learns.lasting.refl w⟩⟩)

theorem fail_other {told : α → Prop} {f : Fault} (other : f.isConfiguration = false) :
    (Job.setting S h P K).Determined told (Job.fail f : Job α) :=
  .inr (.inr (fun w _ => ⟨f, w, rfl, other, World.Learns.lasting.refl w⟩))

theorem log_determined (level : LogLevel) (logger message : String) :
    (Job.setting S h P K).Determined (fun _ => True) (Job.log level logger message) :=
  .inl ⟨(), trivial, fun _ _ => ⟨_, rfl, .refl _, id, rfl, rfl, rfl⟩⟩

theorem attempt_compile_determined (source : String) : (Job.setting S h P K).Determined
    (fun r => r = (Script.compile source).mapError (refusal source)) (Job.attempt (Job.compile source)) := by
  refine .inl ⟨_, rfl, fun w here => ?_⟩
  obtain ⟨evaluator, journal, later, -, compiled⟩ := Job.compile_honest here.2.1 source
  refine ⟨{ w with evaluator, journal }, ?_, .refl _, fun _ => later, rfl, rfl, rfl⟩
  rw [Job.attempt, compiled]
  cases (Script.compile source).mapError (refusal source) <;> rfl

theorem space_determined (space : Option String) :
    (Job.setting S h P K).Determined (fun _ => True) (spaceOf (prefixValue space)) := by
  cases space with
  | none => exact .get {} (.pure setting_lawful trivial) (fun _ _ => rfl)
  | some name =>
    have shown : (Job.setting S h P K).Determined (fun _ => True) (Job.shown (.str name)) :=
      act_determined (Script.Act.plain_determined (.plain rfl))
    refine .get {} ?_ (fun _ _ => rfl)
    dsimp only
    split
    · exact shown.bind setting_lawful (fun _ _ => .pure setting_lawful trivial)
    · exact .pure setting_lawful trivial

variable {id items : Value} {space : Option String} (identified : id.Among S)
include identified

theorem unknownStep_known (step : String) : Fault.ToldAlike S h (.unknownStep step (some id)) :=
  ⟨rfl, fun _ shares => congrArg (fun shown => s!"Workflow schema \"{shown}\" refers to an unknown step id \"{step}\".")
    (shares.shown identified)⟩

theorem invalidSchema_known (path : Path) (reason : String) : Fault.ToldAlike S h (.invalidSchema id path reason) :=
  ⟨rfl, fun _ shares => congrArg (fun shown => s!"Workflow schema \"{shown}\" at {path.text}: {reason}")
    (shares.shown identified)⟩

theorem normalise_determined (among : items.Among S) :
    Alike S h P (normalise id items (prefixValue space)) := by
  refine (space_determined space).bind setting_lawful (fun named _ => ?_)
  refine .get { heap := h } ?_ (fun w here => by rw [here.1.ofValue? among])
  dsimp only
  cases read : Draft.ofValue? h Script.depthLimit items with
  | none => exact act_determined (Script.Act.fail_determined _ _)
  | some draft =>
    dsimp only
    cases checked : draft.schema named with
    | ok schema => exact .pure setting_lawful trivial
    | error defect =>
      by_cases shared : ∃ k, h.Shares S k
      · obtain ⟨k, shares⟩ := shared
        have flaw := (Draft.judged read).rows _ _ checked
        refine (act_determined (Cause.explain_determined (flaw.among shares among))).bind setting_lawful (fun reason _ => ?_)
        exact fail_known (invalidSchema_known identified _ _)
      · exact .inr (.inr (fun w here => absurd ⟨w.heap, here.1⟩ shared))

theorem checkSteps_determined {steps : List Step} (known : ∀ r, P r → r.steps = steps) (ids : List (Path × String)) :
    Alike S h P (Executor.checkSteps id ids) := by
  induction ids with
  | nil => exact .pure setting_lawful trivial
  | cons entry rest ih =>
    obtain ⟨path, name⟩ := entry
    refine .get { registry := { steps } } ?_ (fun w here => by rw [Registry.step?, known _ here.2.2, Registry.step?])
    dsimp only
    split
    · have refused : Alike S h P (Job.fail (.unknownStep name (some id)) : Job PUnit) :=
        fail_known (unknownStep_known identified _)
      exact refused.bind setting_lawful (fun _ _ => ih)
    · exact ih

theorem checkConditions_determined (conditions : List (Path × Condition)) :
    Alike S h P (Executor.checkConditions id conditions) := by
  induction conditions with
  | nil => exact .pure setting_lawful trivial
  | cons entry rest ih =>
    obtain ⟨path, text | f⟩ := entry
    · rw [Executor.checkConditions]
      refine (attempt_compile_determined text).bind setting_lawful (fun r told => ?_)
      subst told
      cases Script.compile text with
      | ok program => exact ih
      | error fault =>
        cases fault with
        | refused refusal =>
          have refused : Alike S h P (Job.fail (.invalidSchema id path refusal.reason) : Job PUnit) :=
            fail_known (invalidSchema_known identified _ _)
          exact refused.bind setting_lawful (fun _ _ => ih)
        | misplaced =>
          have stopped : Alike S h P (Job.fail .misplaced : Job PUnit) := fail_other rfl
          exact stopped.bind setting_lawful (fun _ _ => ih)
    · exact ih

end Job

/-- The registry has some steps, and no schema under an id. -/
def Registry.Awaits (steps : List Step) (id : Value) (r : Registry) : Prop := r.steps = steps ∧ r.schema? id = none

namespace Executor
variable {S : Addr → Prop} {h : Heap} {P : Registry → Prop} {K : Fault → Prop} {steps : List Step} {id items : Value}
  {space : Option String}

theorem examine_determined (identified : id.Among S) (among : items.Among S) :
    Job.Alike S h (Registry.Awaits steps id) (examine id items (prefixValue space)) := by
  have lawful := Job.setting_lawful (S := S) (h := h) (P := Registry.Awaits steps id) (K := Fault.ToldAlike S h)
  refine (Job.act_determined (Script.Act.checkKey_determined identified)).bind lawful (fun _ _ => ?_)
  refine .get {} ?_ (fun w here => by rw [here.2.2.2]; rfl)
  refine (Job.normalise_determined identified among).bind lawful (fun schema _ => ?_)
  refine (Job.checkSteps_determined identified (fun r awaits => awaits.1) _).bind lawful (fun _ _ => ?_)
  exact (Job.checkConditions_determined identified _).bind lawful (fun _ _ => .pure lawful trivial)

theorem announce_determined (identified : id.Among S) :
    (Job.setting S h P K).Determined (fun _ => True) (announce id (prefixValue space)) := by
  have lawful := Job.setting_lawful (S := S) (h := h) (P := P) (K := K)
  have noted (note : String) : (Job.setting S h P K).Determined (fun _ => True) (do
      Job.log .debug "stepflow.workflow.registry" s!"Registered workflow schema: {← Job.shown id}{note}") :=
    (Job.act_determined (Script.Act.plain_determined identified)).bind lawful (fun _ _ => Job.log_determined _ _ _)
  refine (Job.space_determined space).bind lawful (fun named _ => ?_)
  cases named with
  | none => exact noted ""
  | some name => exact noted _

/-- What comes of the registration of a schema in worlds that have its objects and the steps: in each of them it is stored, or it
is refused for one reason, or something else goes wrong. -/
theorem register_determined (identified : id.Among S) (among : items.Among S) :
    (∃ schema, ∀ w, h.Shares S w.heap → w.evaluator.Honest → w.registry.Awaits steps id →
      ∃ w', register id items (prefixValue space) w = .ok () w' ∧ (w.storing ⟨id, schema, prefixValue space⟩).Learns w') ∨
    (∃ f, f.ToldAlike S h ∧ ∀ w, h.Shares S w.heap → w.evaluator.Honest →
      w.registry.Awaits steps id → ∃ w', register id items (prefixValue space) w = .error f w' ∧ w.Learns w') ∨
    ∀ w, h.Shares S w.heap → w.evaluator.Honest → w.registry.Awaits steps id →
      ∃ f w', register id items (prefixValue space) w = .error f w' ∧ f.isConfiguration = false := by
  have told : (Job.setting S h (fun _ => True) (fun _ => False)).Determined (fun _ => True) (announce id (prefixValue space)) :=
    announce_determined identified
  have examined : Job.Alike S h (Registry.Awaits steps id) (examine id items (prefixValue space)) :=
    examine_determined identified among
  rw [register_eq]
  obtain ⟨schema, -, runs⟩ | ⟨f, known, fails⟩ | fails := examined
  · -- Whether the schema is stored for good depends on the log, which may not be able to tell of it.
    have stored (w) (shares : h.Shares S w.heap) (honest : w.evaluator.Honest) (awaits : w.registry.Awaits steps id) :
        ∃ w₁ : World, (examine id items (prefixValue space) >>= fun schema =>
            modify (fun w => w.storing ⟨id, schema, prefixValue space⟩) >>= fun _ => announce id (prefixValue space)) w =
            announce id (prefixValue space) w₁ ∧ (w.storing ⟨id, schema, prefixValue space⟩).Learns w₁ := by
      obtain ⟨w₁, ran, learns⟩ := runs w ⟨shares, honest, awaits⟩
      refine ⟨w₁.storing ⟨id, schema, prefixValue space⟩, Work.ok_bind ran, learns.heap, learns.honest, ?_, learns.listeners,
        learns.problems⟩
      simp only [World.storing, learns.registry]
    have there {w w₁ : World} (shares : h.Shares S w.heap) (honest : w.evaluator.Honest)
        (learns : (w.storing ⟨id, schema, prefixValue space⟩).Learns w₁) :
        h.Shares S w₁.heap ∧ w₁.evaluator.Honest ∧ True :=
      ⟨shares.grown (.refl h) learns.heap, learns.honest honest, trivial⟩
    obtain ⟨_, -, tells⟩ | ⟨_, impossible, -⟩ | fails := told
    · refine .inl ⟨schema, fun w shares honest awaits => ?_⟩
      obtain ⟨w₁, same, learns⟩ := stored w shares honest awaits
      obtain ⟨w', ran, more⟩ := tells w₁ (there shares honest learns)
      exact ⟨w', same.trans ran, World.Learns.lasting.trans learns more⟩
    · cases impossible
    · refine .inr (.inr (fun w shares honest awaits => ?_))
      obtain ⟨w₁, same, learns⟩ := stored w shares honest awaits
      obtain ⟨f, w', ran, other, -⟩ := fails w₁ (there shares honest learns)
      exact ⟨f, w', same.trans ran, other⟩
  · refine .inr (.inl ⟨f, known, fun w shares honest awaits => ?_⟩)
    obtain ⟨w', ran, learns⟩ := fails w ⟨shares, honest, awaits⟩
    exact ⟨w', Work.error_bind ran, learns⟩
  · refine .inr (.inr (fun w shares honest awaits => ?_))
    obtain ⟨f, w', ran, other, -⟩ := fails w ⟨shares, honest, awaits⟩
    exact ⟨f, w', Work.error_bind ran, other⟩

end Executor

end Workflow
