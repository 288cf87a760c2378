import Workflow.Proofs.Defects
import Workflow.Proofs.Heaps

/-! What is said of a flaw. A schema is refused as invalid with the place of its first flaw and a reason, unless the reason
cannot be written: this needs an order of the keys that it names, and a text for whatever it shows. -/

namespace Workflow
open Script (Value Heap Entries Act)

namespace Script

/-- An act comes to something, unless there is some problem and it stops with an error. -/
def Act.RunsUnless (problem : Prop) (act : Act α) (h : Heap) (told : α → Heap → Prop) : Prop :=
  (∃ a h', act h = .ok a h' ∧ told a h') ∨ problem ∧ ∃ e h', act h = .error (.raised e) h'

namespace Act.RunsUnless
variable {problem worse : Prop} {act : Act α} {h : Heap} {told other : α → Heap → Prop}

theorem pure {a : α} (holds : told a h) : RunsUnless problem (Pure.pure a) h told := .inl ⟨a, h, rfl, holds⟩

theorem mono (runs : RunsUnless problem act h told) (covers : problem → worse) (implies : ∀ a h', told a h' → other a h') :
    RunsUnless worse act h other := by
  obtain ⟨a, h', ran, holds⟩ | ⟨present, e, h', ran⟩ := runs
  · exact .inl ⟨a, h', ran, implies a h' holds⟩
  · exact .inr ⟨covers present, e, h', ran⟩

theorem bind {k : α → Act β} {after : β → Heap → Prop} (first : RunsUnless problem act h told)
    (rest : ∀ a h', told a h' → RunsUnless problem (k a) h' after) : RunsUnless problem (act >>= k) h after := by
  obtain ⟨a, h', ran, holds⟩ | ⟨present, e, h', ran⟩ := first
  · have same : (act >>= k) h = k a h' := by simp only [Bind.bind, EStateM.bind, ran]
    rw [RunsUnless, same]
    exact rest a h' holds
  · exact .inr ⟨present, e, h', by simp only [Bind.bind, EStateM.bind, ran]⟩

theorem ordered (v w : Value) :
    RunsUnless (∃ fault, v.ordered h .less depthLimit w = .error fault) (Act.ordered .less v w) h (fun _ h' => h' = h) := by
  simp only [RunsUnless, Act.ordered, Bind.bind, EStateM.bind, get_result]
  cases v.ordered h .less depthLimit w with
  | ok answer => exact .inl ⟨answer, h, rfl, rfl⟩
  | error fault => cases fault <;> exact .inr ⟨⟨_, rfl⟩, _, _, rfl⟩

theorem rendered (write : Heap → Except RenderFault String) :
    RunsUnless (∃ fault, write h = .error fault) (Act.rendered write) h (fun _ _ => True) := by
  simp only [RunsUnless, Act.rendered, Bind.bind, EStateM.bind, get_result]
  cases write h with
  | ok s => exact .inl ⟨s, h, rfl, trivial⟩
  | error fault => cases fault <;> exact .inr ⟨⟨_, rfl⟩, _, _, rfl⟩

end Act.RunsUnless

variable {h : Heap}

/-- Two of some values have no order. -/
def Unordered (h : Heap) (values : List Value) : Prop :=
  ∃ v ∈ values, ∃ w ∈ values, ∃ fault, v.ordered h .less depthLimit w = .error fault

theorem Unordered.mono {values more : List Value} (unordered : Unordered h values) (among : ∀ v ∈ values, v ∈ more) :
    Unordered h more := by
  obtain ⟨v, left, w, right, fault, refused⟩ := unordered
  exact ⟨v, among v left, w, among w right, fault, refused⟩

/-- Two of some values have no order, or the list of the values is not written. -/
inductive Unlisted (h : Heap) (values : List Value) : Prop
  | unordered (unordered : Unordered h values) : Unlisted h values
  | unwritten {sorted : Array Value} {fault : RenderFault} (same : sorted.toList.Perm values)
      (refused : Value.quoted (h.alloc (.list sorted)).2 (.ref h.objects.size) = .error fault) : Unlisted h values

/-! Sorting, where a comparison may fail. -/

theorem placeFor_runs (key : Value) (items : Array (Value × Value)) (steps low high : Nat) :
    Act.RunsUnless (Unordered h (key :: items.toList.map (·.1))) (placeFor key items steps low high) h
      (fun _ h' => h' = h) := by
  induction steps generalizing low high with
  | zero => exact .pure rfl
  | succ steps ih =>
    rw [placeFor]
    by_cases between : low < high
    · simp only [if_pos between]
      cases there : items[(low + high) / 2]? with
      | none => exact .pure rfl
      | some item =>
        have among : item.1 ∈ items.toList.map (·.1) :=
          List.mem_map_of_mem (Array.mem_toList_iff.mpr (Array.mem_of_getElem? there))
        have compared : Act.RunsUnless (Unordered h (key :: items.toList.map (·.1))) (Act.ordered .less key item.1) h
            (fun _ h' => h' = h) :=
          (Act.RunsUnless.ordered key item.1).mono (fun ⟨fault, refused⟩ =>
            ⟨key, List.mem_cons_self, item.1, List.mem_cons_of_mem _ among, fault, refused⟩) (fun _ _ => id)
        refine compared.bind (fun answer h' kept => ?_)
        subst kept
        cases answer with
        | true => exact ih low _
        | false => exact ih _ high
    · rw [if_neg between]
      exact .pure rfl

theorem insertAt_perm (item : Value × Value) (items : Array (Value × Value)) (place : Nat) :
    (items.extract 0 place ++ #[item] ++ items.extract place items.size).toList.Perm (item :: items.toList) := by
  have apart : (items.extract 0 place ++ #[item] ++ items.extract place items.size).toList =
      items.toList.take place ++ item :: items.toList.drop place := by
    have rest : (items.toList.drop place).take (items.size - place) = items.toList.drop place :=
      List.take_of_length_le (by simp)
    simp [rest]
  rw [apart]
  refine List.perm_middle.trans ?_
  rw [List.take_append_drop]

theorem insertSorted_runs (items : List (Value × Value)) (sorted : Array (Value × Value)) :
    Act.RunsUnless (Unordered h ((items ++ sorted.toList).map (·.1))) (insertSorted items sorted) h
      (fun found h' => h' = h ∧ found.toList.Perm (items ++ sorted.toList)) := by
  induction items generalizing sorted with
  | nil => exact .pure ⟨rfl, .refl _⟩
  | cons item rest ih =>
    obtain ⟨key, v⟩ := item
    rw [insertSorted]
    have within : ∀ w ∈ key :: sorted.toList.map (·.1), w ∈ ((key, v) :: rest ++ sorted.toList).map (·.1) := by
      intro w among
      rw [List.cons_append, List.map_cons, List.map_append]
      obtain rfl | among := List.mem_cons.mp among
      · exact List.mem_cons_self
      · exact List.mem_cons_of_mem _ (List.mem_append_right _ among)
    have placed := (placeFor_runs (h := h) key sorted (sorted.size + 1) 0 sorted.size).mono
      (fun unordered => unordered.mono within) (fun _ _ => id)
    refine placed.bind (fun place h' kept => ?_)
    subst kept
    have same : (rest ++ (sorted.extract 0 place ++ #[(key, v)] ++ sorted.extract place sorted.size).toList).Perm
        ((key, v) :: rest ++ sorted.toList) := ((insertAt_perm (key, v) sorted place).append_left rest).trans List.perm_middle
    refine (ih _).mono (fun unordered => unordered.mono (fun w among => ?_)) (fun found h' told => ?_)
    · exact (same.map (·.1)).mem_iff.mp among
    · exact ⟨told.1, told.2.trans same⟩

theorem keyed_nothing (m : Machine) (values : List Value) :
    keyed m .nothing values h = .ok (values.map (fun v => (v, v))) h := by
  induction values with
  | nil => rfl
  | cons v rest ih => simp only [keyed, Bind.bind, EStateM.bind, Pure.pure, EStateM.pure, ih, List.map_cons]

theorem sortValues_runs (m : Machine) (values : List Value) :
    Act.RunsUnless (Unordered h values) (sortValues m .nothing false values) h
      (fun sorted h' => h' = h ∧ sorted.toList.Perm values) := by
  have paired : Act.RunsUnless (Unordered h values) (keyed m .nothing values) h
      (fun pairs h' => h' = h ∧ pairs = values.map (fun v => (v, v))) := .inl ⟨_, h, keyed_nothing m values, rfl, rfl⟩
  refine paired.bind (fun pairs h' told => ?_)
  obtain ⟨rfl, rfl⟩ := told
  have firsts : ((values.map (fun v => (v, v)) ++ (#[] : Array (Value × Value)).toList).map (·.1)) = values := by
    simp [Function.comp_def]
  have sorts := insertSorted_runs (h := h') (values.map (fun v => (v, v))) #[]
  rw [firsts] at sorts
  refine sorts.bind (fun found h'' told => .pure ⟨told.1, ?_⟩)
  simpa [Function.comp_def] using told.2.map (·.2)

/-! Texts can be told in any case. -/

theorem Unlisted.names {values : List Value} (unlisted : Unlisted h values) : ∃ v ∈ values, ∀ s, v ≠ .str s := by
  by_contra texts
  push Not at texts
  cases unlisted with
  | unordered unordered =>
    obtain ⟨v, left, w, right, fault, refused⟩ := unordered
    obtain ⟨s, rfl⟩ := texts _ left
    obtain ⟨t, rfl⟩ := texts _ right
    cases refused
  | @unwritten sorted _ same refused =>
    have itself : (h.alloc (.list sorted)).2.object h.objects.size = .list sorted :=
      Heap.object_of_getElem? (h.alloc_found _)
    have written : ∀ v ∈ sorted.toList, ∃ s, v.write (h.alloc (.list sorted)).2 899 [h.objects.size] true = .ok s := by
      intro v among
      obtain ⟨s, rfl⟩ := texts v (same.mem_iff.mp among)
      exact ⟨_, rfl⟩
    obtain ⟨parts, written⟩ := Fallible.mapM_ok written
    rw [Value.quoted, show depthLimit = 899 + 1 from rfl, Value.write, if_neg (by simp), itself, Object.write, written] at refused
    cases refused

end Script

/-- The keys that are told when a table holds too many. -/
def Cause.keys : Cause → List Value
  | .mixedMarker _ keys => keys
  | .stepFields keys => keys
  | .blockFields keys => keys
  | _ => []

/-- What is wrong cannot be told: what is told of a value is not written, or the keys cannot be listed. -/
inductive Unwritable (h : Heap) : Cause → Prop
  | id {v : Value} {fault : Script.RenderFault} (refused : v.quoted h = .error fault) : Unwritable h (.stepId v)
  | kind {v : Value} {fault : Script.RenderFault} (refused : v.plain h = .error fault) : Unwritable h (.unknownMarker v)
  | keys {cause : Cause} (unlisted : Script.Unlisted h cause.keys) : Unwritable h cause

namespace Cause
variable {h : Heap}

theorem sortedText_runs (keys : List Value) :
    Act.RunsUnless (Script.Unlisted h keys) (sortedText keys) h (fun _ _ => True) := by
  refine ((Script.sortValues_runs Script.interpreter keys).mono .unordered (fun _ _ => id)).bind (fun sorted h' told => ?_)
  obtain ⟨rfl, same⟩ := told
  have listed : Act.RunsUnless (Script.Unlisted h' keys) (Act.newList sorted) h'
      (fun v h'' => v = .ref h'.objects.size ∧ h'' = (h'.alloc (.list sorted)).2) := .inl ⟨_, _, rfl, rfl, rfl⟩
  refine listed.bind (fun v h'' told => ?_)
  obtain ⟨rfl, rfl⟩ := told
  exact (Act.RunsUnless.rendered _).mono (fun ⟨_, refused⟩ => .unwritten same refused) (fun _ _ => id)

/-- What is wrong is told, unless that is not to be written. -/
theorem explain_runs (cause : Cause) : Act.RunsUnless (Unwritable h cause) cause.explain h (fun _ _ => True) := by
  have told {act : Act String} (f : String → String) (runs : Act.RunsUnless (Unwritable h cause) act h (fun _ _ => True)) :
      Act.RunsUnless (Unwritable h cause) (do return f (← act)) h (fun _ _ => True) := runs.bind (fun _ _ _ => .pure trivial)
  cases cause with
  | stepId v => exact told _ ((Act.RunsUnless.rendered _).mono (fun ⟨_, refused⟩ => .id refused) (fun _ _ => id))
  | unknownMarker v => exact told _ ((Act.RunsUnless.rendered _).mono (fun ⟨_, refused⟩ => .kind refused) (fun _ _ => id))
  | mixedMarker signal keys | stepFields keys | blockFields keys =>
    exact told _ ((sortedText_runs keys).mono (fun unlisted => .keys unlisted) (fun _ _ => id))
  | _ => exact .inl ⟨_, h, rfl, trivial⟩

end Cause

/-! How a schema is checked. -/

open Grammar

/-- What comes of a flaw: the schema is invalid, and the flaw is told with its place, or the flaw cannot be told. -/
def RefusedFor (id : Value) (w : World) (path : Path) (cause : Cause) (result : EStateM.Result Fault World Schema) : Prop :=
  (∃ reason h', cause.explain w.heap = .ok reason h' ∧
      result = .error (.invalidSchema id path reason) { w with heap := h' }) ∨
    Unwritable w.heap cause ∧ ∃ e h', result = .error (.stopped (.raised e)) { w with heap := h' }

/-- What comes of a value that is no schema is what comes of its first flaw. -/
def Refused (id v : Value) (w : World) (result : EStateM.Result Fault World Schema) : Prop :=
  ∃ path cause, FirstFlaw w.heap false v path cause ∧ RefusedFor id w path cause result

/-- What comes of a value that lies deeper than a run may go. -/
def GivenUp (w : World) (result : EStateM.Result Fault World Schema) : Prop :=
  ∃ a message h', result = .error (.stopped (.raised (.ref a))) { w with heap := h' } ∧
    h'.object a = .error .recursion [message] #[]

variable {w : World} {v : Value}

/-- What is read spells a schema, or has a first flaw. -/
theorem normalise_read (id : Value) (space : Option String) {d : Draft}
    (read : Draft.ofValue? w.heap Script.depthLimit v = some d) :
    (∃ items, SpellsRow w.heap (fullId space) false v items ∧ normalise id v (prefixValue space) w = .ok items w) ∨
      Refused id v w (normalise id v (prefixValue space) w) := by
  obtain ⟨named, spaced, resolves⟩ := spaceOf_prefix space w
  simp only [normalise, Bind.bind, EStateM.bind, spaced, Script.get_result, read]
  cases checked : d.schema named with
  | ok items =>
    have spelt := ((Draft.recognised read).2 false items).mp checked
    rw [resolves, resolveStepId_eq] at spelt
    exact .inl ⟨items, spelt, rfl⟩
  | error defect =>
    refine .inr ⟨defect.path, defect.cause, (Draft.judged read).rows _ _ checked, ?_⟩
    obtain ⟨reason, h', ran, -⟩ | ⟨unwritable, e, h', ran⟩ := defect.cause.explain_runs (h := w.heap)
    · refine .inl ⟨reason, h', ran, ?_⟩
      simp only [EStateM.bind, Job.act, ran]
      rfl
    · refine .inr ⟨unwritable, e, h', ?_⟩
      simp only [EStateM.bind, Job.act, ran]

theorem normalise_unread (id : Value) (space : Option String)
    (unread : Draft.ofValue? w.heap Script.depthLimit v = none) : GivenUp w (normalise id v (prefixValue space) w) := by
  obtain ⟨named, spaced, -⟩ := spaceOf_prefix space w
  simp only [normalise, Bind.bind, EStateM.bind, spaced, Script.get_result, unread]
  exact ⟨_, _, _, rfl, Heap.object_of_getElem? (w.heap.alloc_found _)⟩

/-- A schema is accepted, or refused for its first flaw. The flaw is told with its place if it can be told at all. Only what
lies deeper than a run may go is given up. -/
theorem malformed_schema_refused (id : Value) (space : Option String) {w : World} {v : Value} (grounded : Grounded w.heap v) :
    (∃ depth, ∀ deeper ≥ depth, ∃ d, Draft.ofValue? w.heap deeper v = some d ∧
        ∀ defect, d.schema space = .error defect → FirstFlaw w.heap false v defect.path defect.cause) ∧
      ((∃ items, SpellsRow w.heap (fullId space) false v items ∧ normalise id v (prefixValue space) w = .ok items w) ∨
        Refused id v w (normalise id v (prefixValue space) w) ∨
        Draft.ofValue? w.heap Script.depthLimit v = none ∧ GivenUp w (normalise id v (prefixValue space) w)) := by
  constructor
  · obtain ⟨depth, read⟩ := Draft.grounded_iff.mp grounded
    refine ⟨depth, fun deeper further => ?_⟩
    obtain ⟨d, read⟩ := Option.isSome_iff_exists.mp (Draft.readable_mono further read)
    exact ⟨d, read, (Draft.judged read).rows false⟩
  · cases read : Draft.ofValue? w.heap Script.depthLimit v with
    | none => exact .inr (.inr ⟨rfl, normalise_unread id space read⟩)
    | some d =>
      obtain accepted | refused := normalise_read id space read
      · exact .inl accepted
      · exact .inr (.inl refused)

/-- A world that holds a loop whose marker has a blank test. -/
def World.blanking : World where
  heap :=
    { objects := #[.list #[.str "a", .ref 1],
        .dict #[(.str "steps", .tuple [.str "b", .ref 2]), (.str "while", .str "go")],
        .dict #[(.str "break", .str " ")]] }

theorem blank_marker_refused : normalise (.str "s") (.ref 0) (prefixValue none) .blanking =
      .error (.invalidSchema (.str "s") [.item 1, .steps, .item 1, .marker .breakLoop] "condition cannot be empty") .blanking ∧
    Refused (.str "s") (.ref 0) .blanking (normalise (.str "s") (.ref 0) (prefixValue none) .blanking) := by
  have refused : normalise (.str "s") (.ref 0) (prefixValue none) .blanking =
      .error (.invalidSchema (.str "s") [.item 1, .steps, .item 1, .marker .breakLoop] "condition cannot be empty")
        .blanking := rfl
  have read : (Draft.ofValue? World.blanking.heap Script.depthLimit (.ref 0)).isSome := rfl
  have grounded : Grounded World.blanking.heap (.ref 0) := Draft.grounded_iff.mpr ⟨_, read⟩
  refine ⟨refused, ?_⟩
  obtain ⟨-, ⟨items, -, accepted⟩ | flawed | ⟨unread, -⟩⟩ := malformed_schema_refused (.str "s") none grounded
  · cases refused.symm.trans accepted
  · exact flawed
  · rw [unread] at read
    cases read

/-- A world that holds a step with two more keys, which have no order. -/
def World.mixing : World where
  heap := { objects := #[.list #[.ref 1], .dict #[(.str "id", .str "a"), (.int 1, .int 2), (.str "x", .int 3)]] }

/-- Two keys too many are not told if they have no order: what comes of the schema is an error of the sorting. -/
theorem mixed_keys_not_told : Grounded World.mixing.heap (.ref 0) ∧ ∃ h',
    normalise (.str "s") (.ref 0) (prefixValue none) .mixing =
        .error (.stopped (.raised (.ref 2))) { World.mixing with heap := h' } ∧
      h'.object 2 = .error .type [.str "'<' not supported between instances of 'str' and 'int'"] #[] :=
  ⟨Draft.grounded_iff.mpr ⟨3, rfl⟩, _, rfl, rfl⟩

end Workflow
