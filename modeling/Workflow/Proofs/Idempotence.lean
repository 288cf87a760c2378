import Workflow.Proofs.Grammar
import Workflow.Proofs.Heaps

/-! Schemas that are checked again. What a check gives can be stored as a row of typed items, and a check of this row gives
the same once more: its ids keep the prefix that they have. -/

namespace Workflow
open Script (Value Heap Fields)

/-- What the condition of a typed item is set to. -/
def gateValue (gate : Option Condition) : Value := gate.elim .nothing Condition.value

namespace Grammar

mutual

/-- A value is the typed form of an item. -/
inductive Holds (h : Heap) : Value → Item → Prop
  | step {a : Script.Addr} {fields : Fields} {id : String} {input : Value} {gate : Option Condition}
      (there : h.objects[a]? = some (.record .stepRef fields)) (named : fields.member "id" = .str id)
      (given : fields.member "input" = input) (gated : fields.member "condition" = gateValue gate) :
      Holds h (.ref a) (.step id input gate)
  | block {a : Script.Addr} {fields : Fields} {items : List Item} {gate : Option Condition}
      (there : h.objects[a]? = some (.record .subflowBlock fields)) (inside : HoldsRow h (fields.member "steps") items)
      (gated : fields.member "condition" = gateValue gate) : Holds h (.ref a) (.block items gate)
  | loop {a : Script.Addr} {fields : Fields} {test : Condition} {items : List Item} {gate : Option Condition}
      (there : h.objects[a]? = some (.record .loopBlock fields)) (tested : fields.member "while_" = test.value)
      (inside : HoldsRow h (fields.member "steps") items) (gated : fields.member "condition" = gateValue gate) :
      Holds h (.ref a) (.loop test items gate)
  | marker {a : Script.Addr} {fields : Fields} {signal : Signal} {test : Condition}
      (there : h.objects[a]? = some (.record .controlMarker fields)) (named : fields.member "kind" = .str signal.name)
      (tested : fields.member "condition" = test.value) : Holds h (.ref a) (.marker signal test)

/-- A value is a list of the typed forms of some items. -/
inductive HoldsRow (h : Heap) : Value → List Item → Prop
  | list {a : Script.Addr} {values : Array Value} {items : List Item} (there : h.objects[a]? = some (.list values))
      (each : HoldsAll h values.toList items) : HoldsRow h (.ref a) items

inductive HoldsAll (h : Heap) : List Value → List Item → Prop
  | nil : HoldsAll h [] []
  | cons {v : Value} {rest : List Value} {i : Item} {items : List Item} (first : Holds h v i)
      (others : HoldsAll h rest items) : HoldsAll h (v :: rest) (i :: items)

end

variable {h h' : Heap} {resolve : String → String} {inLoop : Bool} {v t : Value}

/-! What is kept of an item in its typed form. -/

theorem Tests.again {test : Condition} (tests : Tests h v test)
    (kept : ∀ f : Value, f.isCallable h = true → f.isCallable h' = true) : Tests h' test.value test := by
  cases tests with
  | source inside visible => exact .source inside visible
  | call callable => exact .call (kept _ callable)

theorem Gates.again {gate : Option Condition} (gates : Gates h v gate)
    (kept : ∀ f : Value, f.isCallable h = true → f.isCallable h' = true) : Gates h' (gateValue gate) gate := by
  cases gates with
  | free => exact .free
  | gate tests => exact .gate (tests.again kept)

/-- An id that has its prefix keeps it. -/
theorem fullId_again {space later : Option String} (id : String) (same : later = space ∨ space.getD "" ≠ "") :
    fullId later (fullId space id) = fullId space id := by
  by_cases marked : '/' ∈ (fullId space id).toList
  · exact if_pos (.inr marked)
  · have plain : space.getD "" = "" := by
      by_contra named
      by_cases inside : '/' ∈ id.toList
      · exact marked (by rwa [fullId, if_pos (.inr inside)])
      · exact marked (by simp [fullId, named, inside])
    obtain rfl | named := same
    · exact if_pos (.inl plain)
    · exact absurd plain named

theorem fullId_ne_empty {space : Option String} {id : String} (present : id ≠ "") : fullId space id ≠ "" := by
  unfold fullId
  split
  · exact present
  · simp

/-! What is spelt by whatever spells an item of some kind. -/

theorem part_of_table {a : Script.Addr} {entries : Script.Entries} (found : h.object a = .dict entries) {steps : Value}
    (inside : entries.named? "steps" = some steps) : steps ∈ parts h (.ref a) := by
  rw [Draft.named?_eq, Option.map_eq_some_iff] at inside
  obtain ⟨entry, there, rfl⟩ := inside
  have named := List.find?_some there
  simp only [parts, found]
  exact List.mem_map_of_mem (List.mem_filter.mpr ⟨List.mem_of_find?_eq_some there, named⟩)

theorem Spells.ofStep {id : String} {input : Value} {gate : Option Condition}
    (spells : Spells h resolve inLoop v (.step id input gate)) :
    (∃ written, written ≠ "" ∧ id = resolve written) ∧ ∃ w, Gates h w gate := by
  cases spells with
  | name present => exact ⟨⟨_, present, rfl⟩, _, .free⟩
  | step _ _ _ present gated => exact ⟨⟨_, present, rfl⟩, _, gated⟩
  | typedStep _ _ present gated => exact ⟨⟨_, present, rfl⟩, _, gated⟩

theorem Spells.ofBlock {items : List Item} {gate : Option Condition} (spells : Spells h resolve inLoop v (.block items gate)) :
    (∃ steps ∈ parts h v, SpellsRow h resolve inLoop steps items) ∧ ∃ w, Gates h w gate := by
  cases spells with
  | block found _ _ inside spelt gated => exact ⟨⟨_, part_of_table found inside, spelt⟩, _, gated⟩
  | typedBlock found spelt gated => exact ⟨⟨_, by simp [parts, found], spelt⟩, _, gated⟩

theorem Spells.ofLoop {test : Condition} {items : List Item} {gate : Option Condition}
    (spells : Spells h resolve inLoop v (.loop test items gate)) :
    (∃ w, Tests h w test) ∧ (∃ steps ∈ parts h v, SpellsRow h resolve true steps items) ∧ ∃ w, Gates h w gate := by
  cases spells with
  | loop found _ _ tests inside spelt gated => exact ⟨⟨_, tests⟩, ⟨_, part_of_table found inside, spelt⟩, _, gated⟩
  | typedLoop found tests spelt gated => exact ⟨⟨_, tests⟩, ⟨_, by simp [parts, found], spelt⟩, _, gated⟩

theorem Spells.ofMarker {signal : Signal} {test : Condition} (spells : Spells h resolve inLoop v (.marker signal test)) :
    inLoop = true ∧ ∃ w, Tests h w test := by
  cases spells with
  | marker _ _ _ tests | typedMarker _ _ tests => exact ⟨rfl, _, tests⟩

theorem SpellsRow.ofParts {items : List Item} (spelt : SpellsRow h resolve inLoop v items) :
    SpellsAll h resolve inLoop (parts h v) items := by
  cases spelt with
  | tuple spelt => exact spelt
  | list found spelt => rwa [parts, found]

/-! The typed form of what is spelt spells the same, and need not be read deeper. -/

section
variable {space later : Option String}

theorem HoldsRow.again {items : List Item} {inLoop : Bool} {depth : Nat} (spelt : SpellsRow h (fullId space) inLoop v items)
    (holds : HoldsRow h' t items) (read : (Draft.ofValue? h depth v).isSome)
    (each : ∀ depth values typed, SpellsAll h (fullId space) inLoop values items → HoldsAll h' typed items →
      (∀ v ∈ values, (Draft.ofValue? h depth v).isSome) →
      SpellsAll h' (fullId later) inLoop typed items ∧ ∀ t ∈ typed, (Draft.ofValue? h' depth t).isSome) :
    SpellsRow h' (fullId later) inLoop t items ∧ (Draft.ofValue? h' depth t).isSome := by
  cases depth with
  | zero => cases read
  | succ depth =>
    cases holds with
    | list there typed =>
      have found := Heap.object_of_getElem? there
      obtain ⟨spelt, reads⟩ := each depth _ _ spelt.ofParts typed (Draft.readable_succ.mp read)
      refine ⟨.list found spelt, Draft.readable_succ.mpr ?_⟩
      simpa only [parts, found] using reads

mutual

theorem Holds.again (same : later = space ∨ space.getD "" ≠ "")
    (kept : ∀ f : Value, f.isCallable h = true → f.isCallable h' = true) {v t : Value} {inLoop : Bool} {depth : Nat} :
    (i : Item) → Spells h (fullId space) inLoop v i → Holds h' t i → (Draft.ofValue? h (depth + 1) v).isSome →
    Spells h' (fullId later) inLoop t i ∧ (Draft.ofValue? h' (depth + 1) t).isSome
  | .step id input gate, spells, @Holds.step _ a fields _ _ _ there named given gated, read => by
    have found := Heap.object_of_getElem? there
    obtain ⟨⟨written, present, rfl⟩, w, gates⟩ := spells.ofStep
    have spelt : Spells h' (fullId later) inLoop (.ref a) (.step (fullId later (fullId space written)) input gate) :=
      given ▸ .typedStep found named (fullId_ne_empty present) (gated ▸ gates.again kept)
    rw [fullId_again written same] at spelt
    exact ⟨spelt, by simp [Draft.ofValue?, found]⟩
  | .block items gate, spells, .block there inside gated, read => by
    have found := Heap.object_of_getElem? there
    obtain ⟨⟨steps, part, spelt⟩, w, gates⟩ := spells.ofBlock
    have deeper := Draft.readable_succ.mp read steps part
    obtain ⟨row, reads⟩ := inside.again spelt deeper (fun _ _ _ => HoldsAll.again same kept items)
    refine ⟨.typedBlock found row (gated ▸ gates.again kept), Draft.readable_succ.mpr ?_⟩
    simpa only [parts, found, List.forall_mem_singleton] using reads
  | .loop test items gate, spells, .loop there tested inside gated, read => by
    have found := Heap.object_of_getElem? there
    obtain ⟨⟨_, tests⟩, ⟨steps, part, spelt⟩, w, gates⟩ := spells.ofLoop
    have deeper := Draft.readable_succ.mp read steps part
    obtain ⟨row, reads⟩ := inside.again spelt deeper (fun _ _ _ => HoldsAll.again same kept items)
    refine ⟨.typedLoop found (tested ▸ tests.again kept) row (gated ▸ gates.again kept), Draft.readable_succ.mpr ?_⟩
    simpa only [parts, found, List.forall_mem_singleton] using reads
  | .marker signal test, spells, .marker there named tested, read => by
    have found := Heap.object_of_getElem? there
    obtain ⟨rfl, w, tests⟩ := spells.ofMarker
    refine ⟨.typedMarker found named (tested ▸ tests.again kept), ?_⟩
    simp [Draft.ofValue?, found]

theorem HoldsAll.again (same : later = space ∨ space.getD "" ≠ "")
    (kept : ∀ f : Value, f.isCallable h = true → f.isCallable h' = true) {values typed : List Value} {inLoop : Bool}
    {depth : Nat} : (items : List Item) →
    SpellsAll h (fullId space) inLoop values items → HoldsAll h' typed items →
    (∀ v ∈ values, (Draft.ofValue? h depth v).isSome) →
    SpellsAll h' (fullId later) inLoop typed items ∧ ∀ t ∈ typed, (Draft.ofValue? h' depth t).isSome
  | [], .nil, .nil, _ => ⟨.nil, List.forall_mem_nil _⟩
  | i :: items, .cons first others, .cons typed rest, read => by
    obtain ⟨here, below⟩ := List.forall_mem_cons.mp read
    cases depth with
    | zero => cases here
    | succ depth =>
      obtain ⟨spells, reads⟩ := Holds.again same kept i first typed here
      obtain ⟨spelt, readAll⟩ := HoldsAll.again same kept items others rest below
      exact ⟨.cons spells spelt, List.forall_mem_cons.mpr ⟨reads, readAll⟩⟩

end

end

/-! Every schema has a typed form, which may be stored behind what is there. -/

theorem HoldsRow.mono {items : List Item} (grows : h.Extends h') (holds : HoldsRow h t items)
    (each : ∀ typed, HoldsAll h typed items → HoldsAll h' typed items) : HoldsRow h' t items := by
  cases holds with
  | list there typed => exact .list (grows _ _ there) (each _ typed)

mutual

theorem Holds.mono {t : Value} (grows : h.Extends h') : (i : Item) → Holds h t i → Holds h' t i
  | .step _ _ _, .step there named given gated => .step (grows _ _ there) named given gated
  | .block items _, .block there inside gated =>
    .block (grows _ _ there) (inside.mono grows (fun _ => HoldsAll.mono grows items)) gated
  | .loop _ items _, .loop there tested inside gated =>
    .loop (grows _ _ there) tested (inside.mono grows (fun _ => HoldsAll.mono grows items)) gated
  | .marker _ _, .marker there named tested => .marker (grows _ _ there) named tested

theorem HoldsAll.mono {typed : List Value} (grows : h.Extends h') :
    (items : List Item) → HoldsAll h typed items → HoldsAll h' typed items
  | [], .nil => .nil
  | i :: items, .cons first others => .cons (Holds.mono grows i first) (HoldsAll.mono grows items others)

end

theorem HoldsAll.stored {typed : List Value} {items : List Item} (each : HoldsAll h typed items) :
    ∃ t h', h.Extends h' ∧ HoldsRow h' t items :=
  have grows := Script.Heap.Extends.alloc h (.list typed.toArray)
  ⟨.ref h.objects.size, _, grows, .list (h.alloc_found _) (each.mono grows items)⟩

mutual

theorem exists_holds (h : Heap) : (i : Item) → ∃ t h', h.Extends h' ∧ Holds h' t i
  | .step id input gate => by
    let fields : Fields := #[("id", .str id), ("input", input), ("condition", gateValue gate)]
    exact ⟨_, _, .alloc h (.record .stepRef fields), .step (h.alloc_found _) rfl rfl rfl⟩
  | .block items gate => by
    obtain ⟨typed, h₁, grows, each⟩ := exists_holdsAll h items
    obtain ⟨row, h₂, further, inside⟩ := each.stored
    let fields : Fields := #[("steps", row), ("condition", gateValue gate)]
    have last := Script.Heap.Extends.alloc h₂ (.record .subflowBlock fields)
    refine ⟨_, _, (grows.trans further).trans last, .block (h₂.alloc_found _) ?_ rfl⟩
    exact inside.mono last (fun _ => HoldsAll.mono last items)
  | .loop test items gate => by
    obtain ⟨typed, h₁, grows, each⟩ := exists_holdsAll h items
    obtain ⟨row, h₂, further, inside⟩ := each.stored
    let fields : Fields := #[("while_", test.value), ("steps", row), ("condition", gateValue gate)]
    have last := Script.Heap.Extends.alloc h₂ (.record .loopBlock fields)
    refine ⟨_, _, (grows.trans further).trans last, .loop (h₂.alloc_found _) rfl ?_ rfl⟩
    exact inside.mono last (fun _ => HoldsAll.mono last items)
  | .marker signal test => by
    let fields : Fields := #[("kind", .str signal.name), ("condition", test.value)]
    exact ⟨_, _, .alloc h (.record .controlMarker fields), .marker (h.alloc_found _) rfl rfl⟩

theorem exists_holdsAll (h : Heap) : (items : List Item) → ∃ typed h', h.Extends h' ∧ HoldsAll h' typed items
  | [] => ⟨[], h, .refl h, .nil⟩
  | i :: items => by
    obtain ⟨t, h₁, grows, first⟩ := exists_holds h i
    obtain ⟨typed, h₂, further, others⟩ := exists_holdsAll h₁ items
    exact ⟨t :: typed, h₂, grows.trans further, .cons (first.mono further i) others⟩

end

end Grammar

/-- What passes a check, passes it again in its typed form, as the same schema: with the same prefix, and if that is no empty
one with any other, at any later time when whatever could be called still can. -/
theorem normalise_again {id : Value} {space : Option String} {w w₁ : World} {v : Value} {items : Schema}
    (accepted : normalise id v (prefixValue space) w = .ok items w₁) :
    (∃ t h, w₁.heap.Extends h ∧ Grammar.HoldsRow h t items) ∧
      ∀ (w₂ : World) (t : Value), Grammar.HoldsRow w₂.heap t items →
        (∀ f : Value, f.isCallable w₁.heap = true → f.isCallable w₂.heap = true) →
        ∀ (other : Value) (later : Option String), later = space ∨ space.getD "" ≠ "" →
          normalise other t (prefixValue later) w₂ = .ok items w₂ := by
  obtain ⟨rfl, spelt, read⟩ := (normalise_ok_iff id space).mp accepted
  constructor
  · obtain ⟨typed, h₁, grows, each⟩ := Grammar.exists_holdsAll w₁.heap items
    obtain ⟨t, h₂, further, row⟩ := each.stored
    exact ⟨t, h₂, grows.trans further, row⟩
  · intro w₂ t holds kept other later same
    obtain ⟨again, reads⟩ := holds.again spelt read (fun _ _ _ => Grammar.HoldsAll.again same kept items)
    exact (normalise_ok_iff other later).mpr ⟨rfl, again, reads⟩

/-- A world that holds a loop over a step and a marker, as it is written and in its typed form with a prefix. -/
def World.doubling : World where
  heap :=
    { objects := #[.list #[.ref 1],
        .dict #[(.str "steps", .tuple [.str "a", .ref 2]), (.str "while", .str "go")],
        .dict #[(.str "break", .str "done")],
        .record .stepRef #[("id", .str "n/a"), ("input", .nothing), ("condition", .nothing)],
        .record .controlMarker #[("kind", .str "break"), ("condition", .str "done")],
        .list #[.ref 3, .ref 4],
        .record .loopBlock #[("while_", .str "go"), ("steps", .ref 5), ("condition", .nothing)],
        .list #[.ref 6]] }

open Grammar in
theorem doubled_loop_normalised_again : normalise (.str "s") (.ref 0) (prefixValue (some "n")) .doubling =
      .ok [.loop (.source "go") [.step "n/a" .nothing none, .marker .breakLoop (.source "done")] none] .doubling ∧
    normalise (.str "t") (.ref 7) (prefixValue (some "m")) .doubling =
      .ok [.loop (.source "go") [.step "n/a" .nothing none, .marker .breakLoop (.source "done")] none] .doubling := by
  have accepted : normalise (.str "s") (.ref 0) (prefixValue (some "n")) .doubling =
      .ok [.loop (.source "go") [.step "n/a" .nothing none, .marker .breakLoop (.source "done")] none] .doubling := by
    have named : fullId (some "n") "a" = "n/a" := by decide
    have whole : World.doubling.heap.object 0 = .list #[.ref 1] := rfl
    have outer : World.doubling.heap.object 1 =
        .dict #[(.str "steps", .tuple [.str "a", .ref 2]), (.str "while", .str "go")] := rfl
    have inner : World.doubling.heap.object 2 = .dict #[(.str "break", .str "done")] := rfl
    have step : Spells World.doubling.heap (fullId (some "n")) true (.str "a") (.step "n/a" .nothing none) :=
      named ▸ .name (by decide)
    have marker : Spells World.doubling.heap (fullId (some "n")) true (.ref 2) (.marker .breakLoop (.source "done")) :=
      .marker inner (by simp [Script.Entries.Within, Signal.name]) rfl (.source (c := 'd') (by decide) (by decide))
    have loop : Spells World.doubling.heap (fullId (some "n")) false (.ref 1)
        (.loop (.source "go") [.step "n/a" .nothing none, .marker .breakLoop (.source "done")] none) :=
      .loop outer (by simp [Script.Entries.Within]) rfl (.source (c := 'g') (by decide) (by decide)) rfl
        (.tuple (.cons step (.cons marker .nil))) .free
    exact (normalise_ok_iff _ _).mpr ⟨rfl, .list whole (.cons loop .nil), rfl⟩
  refine ⟨accepted, (normalise_again accepted).2 .doubling (.ref 7) ?_ (fun f callable => callable) _ _ (.inr (by decide))⟩
  have inside : HoldsAll World.doubling.heap [.ref 3, .ref 4]
      [.step "n/a" .nothing none, .marker .breakLoop (.source "done")] :=
    .cons (.step rfl rfl rfl rfl) (.cons (.marker rfl rfl rfl) .nil)
  exact .list rfl (.cons (.loop rfl rfl (.list rfl inside) rfl) .nil)

end Workflow
