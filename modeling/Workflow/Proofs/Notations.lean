import Workflow.Proofs.Reasons

/-! The two notations of items. A table and a typed item that hold the same spell the same, wherever they stand in a schema, so
that one may be written for the other anywhere and any number of times. -/

namespace Workflow
open Script (Value Heap Entries Fields)

/-- No two entries have the same key. -/
def Script.Entries.Distinct (entries : Entries) : Prop := entries.toList.Pairwise (fun e f => e.1.sameKey f.1 = false)

/-- Two tables that differ in one entry for steps. -/
def Script.Entries.Replaced (entries fresh : Entries) (steps others : Value) : Prop :=
  ∃ before after, entries.toList = before ++ (.str "steps", steps) :: after ∧
    fresh.toList = before ++ (.str "steps", others) :: after

namespace Grammar

/-- What an item holds, in either notation. -/
inductive Members where
  | step (id input gate : Value)
  | block (steps gate : Value)
  | loop (test steps gate : Value)
  | marker (signal : Signal) (test : Value)

/-- A value holds some members, as a table of an accepted form or as a typed item. -/
inductive Written (h : Heap) : Value → Members → Prop
  | step {a : Script.Addr} {entries : Entries} {id : Value} (found : h.object a = .dict entries)
      (only : entries.Within ["id", "input", "condition"]) (named : entries.named? "id" = some id) :
      Written h (.ref a)
        (.step id ((entries.named? "input").getD .nothing) ((entries.named? "condition").getD .nothing))
  | block {a : Script.Addr} {entries : Entries} {steps : Value} (found : h.object a = .dict entries)
      (distinct : entries.Distinct) (only : entries.Within ["steps", "condition", "while"])
      (free : entries.named? "while" = none) (inside : entries.named? "steps" = some steps) :
      Written h (.ref a) (.block steps ((entries.named? "condition").getD .nothing))
  | loop {a : Script.Addr} {entries : Entries} {test steps : Value} (found : h.object a = .dict entries)
      (distinct : entries.Distinct) (only : entries.Within ["steps", "condition", "while"])
      (tested : entries.named? "while" = some test) (inside : entries.named? "steps" = some steps) :
      Written h (.ref a) (.loop test steps ((entries.named? "condition").getD .nothing))
  | marker {a : Script.Addr} {entries : Entries} {signal : Signal} {test : Value} (found : h.object a = .dict entries)
      (only : entries.Within [signal.name]) (named : entries.named? signal.name = some test) :
      Written h (.ref a) (.marker signal test)
  | typedStep {a : Script.Addr} {fields : Fields} (found : h.object a = .record .stepRef fields) :
      Written h (.ref a) (.step (fields.member "id") (fields.member "input") (fields.member "condition"))
  | typedBlock {a : Script.Addr} {fields : Fields} (found : h.object a = .record .subflowBlock fields) :
      Written h (.ref a) (.block (fields.member "steps") (fields.member "condition"))
  | typedLoop {a : Script.Addr} {fields : Fields} (found : h.object a = .record .loopBlock fields) :
      Written h (.ref a) (.loop (fields.member "while_") (fields.member "steps") (fields.member "condition"))
  | typedMarker {a : Script.Addr} {fields : Fields} {signal : Signal} (found : h.object a = .record .controlMarker fields)
      (named : fields.member "kind" = .str signal.name) : Written h (.ref a) (.marker signal (fields.member "condition"))

mutual

/-- Two values that differ in the notation of some items: of the items themselves or of any inside. -/
inductive Renoted (h : Heap) : Value → Value → Prop
  | same {v : Value} : Renoted h v v
  | step {v w id input gate : Value} (left : Written h v (.step id input gate)) (right : Written h w (.step id input gate)) :
      Renoted h v w
  | block {v w steps others gate : Value} (left : Written h v (.block steps gate)) (right : Written h w (.block others gate))
      (inside : RenotedRow h steps others) : Renoted h v w
  | loop {v w test steps others gate : Value} (left : Written h v (.loop test steps gate))
      (right : Written h w (.loop test others gate)) (inside : RenotedRow h steps others) : Renoted h v w
  | marker {v w : Value} {signal : Signal} {test : Value} (left : Written h v (.marker signal test))
      (right : Written h w (.marker signal test)) : Renoted h v w
  | table {a b : Script.Addr} {entries fresh : Entries} {steps others : Value} (left : h.object a = .dict entries)
      (right : h.object b = .dict fresh) (replaced : entries.Replaced fresh steps others)
      (inside : RenotedRow h steps others) : Renoted h (.ref a) (.ref b)

inductive RenotedRow (h : Heap) : Value → Value → Prop
  | same {v : Value} : RenotedRow h v v
  | rows {v w : Value} {values others : List Value} (left : rowOf? h v = some values) (right : rowOf? h w = some others)
      (each : RenotedAll h values others) : RenotedRow h v w

inductive RenotedAll (h : Heap) : List Value → List Value → Prop
  | nil : RenotedAll h [] []
  | cons {v w : Value} {values others : List Value} (first : Renoted h v w) (rest : RenotedAll h values others) :
      RenotedAll h (v :: values) (w :: others)

end

section
variable {entries fresh : Entries} {steps others : Value} (replaced : entries.Replaced fresh steps others)
include replaced

theorem replaced_symm : fresh.Replaced entries others steps := by
  obtain ⟨before, after, listed, relisted⟩ := replaced
  exact ⟨before, after, relisted, listed⟩

theorem within_replaced {names : List String} (only : entries.Within names) : fresh.Within names := by
  obtain ⟨before, after, listed, relisted⟩ := replaced
  intro entry among
  rw [← Array.mem_toList_iff, relisted, List.mem_append, List.mem_cons] at among
  have within (e : Value × Value) (member : e ∈ before ++ (.str "steps", steps) :: after) :
      ∃ name ∈ names, e.1 = .str name := only e (by rwa [← Array.mem_toList_iff, listed])
  obtain earlier | rfl | later := among
  · exact within entry (by simp [earlier])
  · exact within (.str "steps", steps) (by simp)
  · exact within entry (by simp [later])

theorem named?_replaced {name : String} (other : name ≠ "steps") : fresh.named? name = entries.named? name := by
  obtain ⟨before, after, listed, relisted⟩ := replaced
  have apart : (Value.str "steps").sameKey (.str name) = false :=
    Bool.eq_false_iff.mpr (mt (Script.Value.sameKey_str _ _).mp (by simpa using other.symm))
  simp [Draft.named?_eq, listed, relisted, List.find?_append, apart]

theorem steps_replaced {found : Value} (inside : entries.named? "steps" = some found) :
    ∃ x, fresh.named? "steps" = some x ∧ (x = found ∨ found = steps ∧ x = others) := by
  obtain ⟨before, after, listed, relisted⟩ := replaced
  have here : (Value.str "steps").sameKey (.str "steps") = true := (Script.Value.sameKey_str _ _).mpr rfl
  rw [Draft.named?_eq, listed, List.find?_append] at inside
  rw [Draft.named?_eq, relisted, List.find?_append]
  cases earlier : before.find? (·.1.sameKey (.str "steps")) with
  | some entry =>
    rw [earlier] at inside
    cases inside
    exact ⟨_, rfl, .inl rfl⟩
  | none =>
    rw [earlier] at inside
    simp only [Option.none_or, List.find?_cons, here, Option.map_some, Option.some.injEq] at inside ⊢
    exact ⟨others, rfl, .inr ⟨inside.symm, rfl⟩⟩

end

variable {h : Heap} {resolve : String → String} {inLoop : Bool} {v w : Value} {i : Item}

mutual

theorem Renoted.symm {v w : Value} : Renoted h v w → Renoted h w v
  | .same => .same
  | .step left right => .step right left
  | .block left right inside => .block right left inside.symm
  | .loop left right inside => .loop right left inside.symm
  | .marker left right => .marker right left
  | .table left right replaced inside => .table right left (replaced_symm replaced) inside.symm

theorem RenotedRow.symm {v w : Value} : RenotedRow h v w → RenotedRow h w v
  | .same => .same
  | .rows left right each => .rows right left each.symm

theorem RenotedAll.symm {values others : List Value} : RenotedAll h values others → RenotedAll h others values
  | .nil => .nil
  | .cons first rest => .cons first.symm rest.symm

end

/-! What is spelt depends on the members only. -/

theorem Written.step_iff {id input gate : Value} (written : Written h v (.step id input gate)) :
    Spells h resolve inLoop v i ↔ ∃ s g, id = .str s ∧ s ≠ "" ∧ Gates h gate g ∧ i = .step (resolve s) input g := by
  cases written with
  | step found only named =>
    constructor
    · intro spells
      cases spells with
      | step same _ other present gated =>
        cases found.symm.trans same
        cases named.symm.trans other
        exact ⟨_, _, rfl, present, gated, rfl⟩
      | block same _ _ inside | loop same _ _ _ inside =>
        cases found.symm.trans same
        exact absurd inside (absent_ne only (by decide))
      | @marker _ _ signal _ _ same _ other =>
        cases found.symm.trans same
        exact absurd other (absent_ne only (by cases signal <;> decide))
      | typedStep other | typedBlock other | typedLoop other | typedMarker other => cases found.symm.trans other
    · rintro ⟨s, g, rfl, present, gated, rfl⟩
      exact .step found only named present gated
  | typedStep found =>
    constructor
    · intro spells
      cases spells with
      | typedStep same named present gated =>
        cases found.symm.trans same
        exact ⟨_, _, named, present, gated, rfl⟩
      | step other | block other | loop other | marker other => cases found.symm.trans other
      | typedBlock other | typedLoop other | typedMarker other => cases found.symm.trans other
    · rintro ⟨s, g, named, present, gated, rfl⟩
      exact .typedStep found named present gated

theorem Written.block_iff {steps gate : Value} (written : Written h v (.block steps gate)) :
    Spells h resolve inLoop v i ↔ ∃ items g, SpellsRow h resolve inLoop steps items ∧ Gates h gate g ∧ i = .block items g := by
  cases written with
  | block found _ only free inside =>
    constructor
    · intro spells
      cases spells with
      | block same _ _ other spelt gated =>
        cases found.symm.trans same
        cases inside.symm.trans other
        exact ⟨_, _, spelt, gated, rfl⟩
      | loop same _ tested =>
        cases found.symm.trans same
        cases free.symm.trans tested
      | step same _ named =>
        cases found.symm.trans same
        exact absurd named (absent_ne only (by decide))
      | @marker _ _ signal _ _ same _ other =>
        cases found.symm.trans same
        exact absurd other (absent_ne only (by cases signal <;> decide))
      | typedStep other | typedBlock other | typedLoop other | typedMarker other => cases found.symm.trans other
    · rintro ⟨items, g, spelt, gated, rfl⟩
      exact .block found only free inside spelt gated
  | typedBlock found =>
    constructor
    · intro spells
      cases spells with
      | typedBlock same spelt gated =>
        cases found.symm.trans same
        exact ⟨_, _, spelt, gated, rfl⟩
      | step other | block other | loop other | marker other => cases found.symm.trans other
      | typedStep other | typedLoop other | typedMarker other => cases found.symm.trans other
    · rintro ⟨items, g, spelt, gated, rfl⟩
      exact .typedBlock found spelt gated

theorem Written.loop_iff {test steps gate : Value} (written : Written h v (.loop test steps gate)) :
    Spells h resolve inLoop v i ↔ ∃ c items g, Tests h test c ∧ SpellsRow h resolve true steps items ∧ Gates h gate g ∧
      i = .loop c items g := by
  cases written with
  | loop found _ only tested inside =>
    constructor
    · intro spells
      cases spells with
      | loop same _ again tests other spelt gated =>
        cases found.symm.trans same
        cases tested.symm.trans again
        cases inside.symm.trans other
        exact ⟨_, _, _, tests, spelt, gated, rfl⟩
      | block same _ free =>
        cases found.symm.trans same
        cases free.symm.trans tested
      | step same _ named =>
        cases found.symm.trans same
        exact absurd named (absent_ne only (by decide))
      | @marker _ _ signal _ _ same _ other =>
        cases found.symm.trans same
        exact absurd other (absent_ne only (by cases signal <;> decide))
      | typedStep other | typedBlock other | typedLoop other | typedMarker other => cases found.symm.trans other
    · rintro ⟨c, items, g, tests, spelt, gated, rfl⟩
      exact .loop found only tested tests inside spelt gated
  | typedLoop found =>
    constructor
    · intro spells
      cases spells with
      | typedLoop same tests spelt gated =>
        cases found.symm.trans same
        exact ⟨_, _, _, tests, spelt, gated, rfl⟩
      | step other | block other | loop other | marker other => cases found.symm.trans other
      | typedStep other | typedBlock other | typedMarker other => cases found.symm.trans other
    · rintro ⟨c, items, g, tests, spelt, gated, rfl⟩
      exact .typedLoop found tests spelt gated

theorem Written.marker_iff {signal : Signal} {test : Value} (written : Written h v (.marker signal test)) :
    Spells h resolve inLoop v i ↔ inLoop = true ∧ ∃ c, Tests h test c ∧ i = .marker signal c := by
  cases written with
  | marker found only named =>
    constructor
    · intro spells
      cases spells with
      | @marker _ _ other _ _ same _ again tests =>
        cases found.symm.trans same
        have alike : other = signal := by
          by_contra different
          exact absurd again (absent_ne only (by revert different; cases signal <;> cases other <;> decide))
        subst alike
        cases named.symm.trans again
        exact ⟨rfl, _, tests, rfl⟩
      | step same _ other | block same _ _ other | loop same _ _ _ other =>
        cases found.symm.trans same
        exact absurd other (absent_ne only (by cases signal <;> decide))
      | typedStep other | typedBlock other | typedLoop other | typedMarker other => cases found.symm.trans other
    · rintro ⟨rfl, c, tests, rfl⟩
      exact .marker found only named tests
  | typedMarker found named =>
    constructor
    · intro spells
      cases spells with
      | @typedMarker _ _ other _ same again tests =>
        cases found.symm.trans same
        have alike : other = signal := by
          have names := named.symm.trans again
          revert names
          cases signal <;> cases other <;> simp [Signal.name]
        subst alike
        exact ⟨rfl, _, tests, rfl⟩
      | step other | block other | loop other | marker other => cases found.symm.trans other
      | typedStep other | typedBlock other | typedLoop other => cases found.symm.trans other
    · rintro ⟨rfl, c, tests, rfl⟩
      exact .typedMarker found named tests

/-- Of two tables that differ in one entry for steps, one spells what the other one does if the two entries do. -/
theorem table_spells {a b : Script.Addr} {entries fresh : Entries} {steps others : Value} (left : h.object a = .dict entries)
    (right : h.object b = .dict fresh) (replaced : entries.Replaced fresh steps others)
    (inside : ∀ inLoop items, SpellsRow h resolve inLoop steps items → SpellsRow h resolve inLoop others items)
    (spells : Spells h resolve inLoop (.ref a) i) : Spells h resolve inLoop (.ref b) i := by
  have gates : fresh.named? "condition" = entries.named? "condition" := named?_replaced replaced (by decide)
  have rows {found : Value} (held : entries.named? "steps" = some found) :
      ∃ x, fresh.named? "steps" = some x ∧
        ∀ inLoop items, SpellsRow h resolve inLoop found items → SpellsRow h resolve inLoop x items := by
    obtain ⟨x, there, rfl | ⟨rfl, rfl⟩⟩ := steps_replaced replaced held
    · exact ⟨_, there, fun _ _ => id⟩
    · exact ⟨_, there, inside⟩
  cases spells with
  | step found only named present gated =>
    cases left.symm.trans found
    rw [← named?_replaced replaced (by decide)] at named
    rw [← gates] at gated
    rw [← named?_replaced replaced (show "input" ≠ "steps" by decide)]
    exact .step right (within_replaced replaced only) named present gated
  | block found only free held spelt gated =>
    cases left.symm.trans found
    obtain ⟨x, there, spells⟩ := rows held
    rw [← named?_replaced replaced (by decide)] at free
    rw [← gates] at gated
    exact .block right (within_replaced replaced only) free there (spells _ _ spelt) gated
  | loop found only tested tests held spelt gated =>
    cases left.symm.trans found
    obtain ⟨x, there, spells⟩ := rows held
    rw [← named?_replaced replaced (by decide)] at tested
    rw [← gates] at gated
    exact .loop right (within_replaced replaced only) tested tests there (spells _ _ spelt) gated
  | @marker _ _ signal _ _ found only named tests =>
    cases left.symm.trans found
    rw [← named?_replaced replaced (by cases signal <;> decide)] at named
    exact .marker right (within_replaced replaced only) named tests
  | typedStep other | typedBlock other | typedLoop other | typedMarker other => cases left.symm.trans other

mutual

theorem Renoted.spells {v w : Value} {inLoop : Bool} {i : Item} :
    Renoted h v w → Spells h resolve inLoop v i → Spells h resolve inLoop w i
  | .same, spells => spells
  | .step left right, spells => right.step_iff.mpr (left.step_iff.mp spells)
  | .block left right inside, spells => by
    obtain ⟨items, g, spelt, gated, rfl⟩ := left.block_iff.mp spells
    exact right.block_iff.mpr ⟨items, g, inside.spells spelt, gated, rfl⟩
  | .loop left right inside, spells => by
    obtain ⟨c, items, g, tests, spelt, gated, rfl⟩ := left.loop_iff.mp spells
    exact right.loop_iff.mpr ⟨c, items, g, tests, inside.spells spelt, gated, rfl⟩
  | .marker left right, spells => right.marker_iff.mpr (left.marker_iff.mp spells)
  | .table left right replaced inside, spells => table_spells left right replaced (fun _ _ => inside.spells) spells

theorem RenotedRow.spells {v w : Value} {inLoop : Bool} {items : List Item} :
    RenotedRow h v w → SpellsRow h resolve inLoop v items → SpellsRow h resolve inLoop w items
  | .same, spelt => spelt
  | .rows left right each, spelt => by
    obtain ⟨values, opened, all⟩ := spelt.opened
    cases left.symm.trans opened
    exact .of_opened right (each.spells all)

theorem RenotedAll.spells {values others : List Value} {inLoop : Bool} {items : List Item} :
    RenotedAll h values others → SpellsAll h resolve inLoop values items → SpellsAll h resolve inLoop others items
  | .nil, all => all
  | .cons first rest, .cons here later => .cons (first.spells here) (rest.spells later)

end

/-! What is inside, and how deep it lies. -/

theorem filter_distinct {list : List (Value × Value)} {name : String} {entry : Value × Value}
    (distinct : list.Pairwise (fun e f => e.1.sameKey f.1 = false)) (found : list.find? (·.1.sameKey (.str name)) = some entry) :
    list.filter (·.1.sameKey (.str name)) = [entry] := by
  induction list with
  | nil => cases found
  | cons first rest ih =>
    obtain ⟨apart, distinct⟩ := List.pairwise_cons.mp distinct
    rw [List.find?_cons] at found
    rw [List.filter_cons]
    cases here : first.1.sameKey (.str name) with
    | true =>
      rw [here] at found
      cases found
      rw [if_pos rfl, List.filter_eq_nil_iff.mpr]
      intro other among again
      have twice : entry.1.sameKey other.1 = true := by
        rwa [(Script.Value.sameKey_str _ _).mp again]
      exact absurd twice (Bool.eq_false_iff.mp (apart other among))
    | false =>
      rw [here] at found
      exact ih distinct found

theorem parts_table {a : Script.Addr} {entries : Entries} {steps : Value} (found : h.object a = .dict entries)
    (distinct : entries.Distinct) (inside : entries.named? "steps" = some steps) : parts h (.ref a) = [steps] := by
  rw [Draft.named?_eq, Option.map_eq_some_iff] at inside
  obtain ⟨entry, there, rfl⟩ := inside
  simp only [parts, found]
  rw [filter_distinct distinct there, List.map_singleton]

theorem parts_table_none {a : Script.Addr} {entries : Entries} (found : h.object a = .dict entries)
    (empty : entries.named? "steps" = none) : parts h (.ref a) = [] := by
  rw [Draft.named?_eq, Option.map_eq_none_iff, List.find?_eq_none] at empty
  simp only [parts, found]
  rw [List.filter_eq_nil_iff.mpr empty, List.map_nil]

theorem Written.step_parts {id input gate : Value} (written : Written h v (.step id input gate)) : parts h v = [] := by
  cases written with
  | step found only => exact parts_table_none found (Draft.absent only (by decide))
  | typedStep found => simp only [parts, found]

theorem Written.block_parts {steps gate : Value} (written : Written h v (.block steps gate)) : parts h v = [steps] := by
  cases written with
  | block found distinct _ _ inside => exact parts_table found distinct inside
  | typedBlock found => simp only [parts, found]

theorem Written.loop_parts {test steps gate : Value} (written : Written h v (.loop test steps gate)) :
    parts h v = [steps] := by
  cases written with
  | loop found distinct _ _ inside => exact parts_table found distinct inside
  | typedLoop found => simp only [parts, found]

theorem Written.marker_parts {signal : Signal} {test : Value} (written : Written h v (.marker signal test)) :
    parts h v = [] := by
  cases written with
  | marker found only => exact parts_table_none found (Draft.absent only (by cases signal <;> decide))
  | typedMarker found => simp only [parts, found]

theorem rowOf?_parts {values : List Value} (opened : rowOf? h v = some values) : parts h v = values := by
  cases v with
  | tuple =>
    cases opened
    rfl
  | ref a =>
    cases found : h.object a with
    | list =>
      simp only [rowOf?, found] at opened
      cases opened
      simp only [parts, found]
    | _ => simp only [rowOf?, found, reduceCtorEq] at opened
  | _ => cases opened

theorem RenotedAll.member {values others : List Value} (each : RenotedAll h values others) (among : w ∈ others) :
    ∃ v ∈ values, Renoted h v w := by
  induction others generalizing values with
  | nil => cases among
  | cons first rest ih =>
    cases each with
    | @cons v _ _ _ here later =>
      obtain rfl | among := List.mem_cons.mp among
      · exact ⟨v, List.mem_cons_self, here⟩
      · obtain ⟨v, inside, renoted⟩ := ih later among
        exact ⟨v, List.mem_cons_of_mem _ inside, renoted⟩

/-- Two values that differ in notation only, as items or as rows. -/
def Alike (h : Heap) (v w : Value) : Prop := Renoted h v w ∨ RenotedRow h v w

/-- Whatever is inside of one of two such values has its like inside of the other one. -/
theorem Alike.parts (alike : Alike h v w) {x : Value} (part : x ∈ parts h w) : ∃ y ∈ parts h v, Alike h y x := by
  obtain renoted | renoted := alike
  · cases renoted with
    | same => exact ⟨x, part, .inl .same⟩
    | step _ right =>
      rw [right.step_parts] at part
      cases part
    | marker _ right =>
      rw [right.marker_parts] at part
      cases part
    | block left right inside =>
      rw [right.block_parts, List.mem_singleton] at part
      subst part
      exact ⟨_, by rw [left.block_parts]; exact List.mem_singleton_self _, .inr inside⟩
    | loop left right inside =>
      rw [right.loop_parts, List.mem_singleton] at part
      subst part
      exact ⟨_, by rw [left.loop_parts]; exact List.mem_singleton_self _, .inr inside⟩
    | table left right replaced inside =>
      obtain ⟨before, after, listed, relisted⟩ := replaced
      simp only [Grammar.parts, left, right, List.mem_map, List.mem_filter, listed, relisted, List.mem_append,
        List.mem_cons] at part ⊢
      obtain ⟨entry, ⟨earlier | rfl | later, named⟩, rfl⟩ := part
      · exact ⟨_, ⟨entry, ⟨.inl earlier, named⟩, rfl⟩, .inl .same⟩
      · exact ⟨_, ⟨_, ⟨.inr (.inl rfl), named⟩, rfl⟩, .inr inside⟩
      · exact ⟨_, ⟨entry, ⟨.inr (.inr later), named⟩, rfl⟩, .inl .same⟩
  · cases renoted with
    | same => exact ⟨x, part, .inl .same⟩
    | rows left right each =>
      rw [rowOf?_parts right] at part
      obtain ⟨y, among, renoted⟩ := each.member part
      exact ⟨y, by rwa [rowOf?_parts left], .inl renoted⟩

theorem Alike.readable {depth : Nat} (alike : Alike h v w) (read : (Draft.ofValue? h depth v).isSome) :
    (Draft.ofValue? h depth w).isSome := by
  induction depth generalizing v w with
  | zero => cases read
  | succ depth ih =>
    rw [Draft.readable_succ] at read ⊢
    intro x part
    obtain ⟨y, other, within⟩ := alike.parts part
    exact ih within (read y other)

end Grammar

open Grammar in
/-- Schemas that differ in the notation of some items spell the same, and a check gives the same schema for both, or refuses
both, each for its own first flaw. -/
theorem notations_interchangeable (id : Value) (space : Option String) {w : World} {v t : Value}
    (renoted : RenotedRow w.heap v t) :
    (∀ items, SpellsRow w.heap (fullId space) false v items ↔ SpellsRow w.heap (fullId space) false t items) ∧
      ((∃ items, normalise id v (prefixValue space) w = .ok items w ∧ normalise id t (prefixValue space) w = .ok items w) ∨
        (Refused id v w (normalise id v (prefixValue space) w) ∧ Refused id t w (normalise id t (prefixValue space) w)) ∨
        (GivenUp w (normalise id v (prefixValue space) w) ∧ GivenUp w (normalise id t (prefixValue space) w))) := by
  have same (items : Schema) :
      SpellsRow w.heap (fullId space) false v items ↔ SpellsRow w.heap (fullId space) false t items :=
    ⟨renoted.spells, renoted.symm.spells⟩
  refine ⟨same, ?_⟩
  have alike : Alike w.heap v t := .inr renoted
  have back : Alike w.heap t v := .inr renoted.symm
  cases read : Draft.ofValue? w.heap Script.depthLimit v with
  | none =>
    cases other : Draft.ofValue? w.heap Script.depthLimit t with
    | none => exact .inr (.inr ⟨normalise_unread id space read, normalise_unread id space other⟩)
    | some d =>
      have impossible := back.readable (by rw [other]; rfl)
      rw [read] at impossible
      cases impossible
  | some d =>
    obtain ⟨e, other⟩ := Option.isSome_iff_exists.mp (alike.readable (by rw [read]; rfl))
    obtain ⟨items, spelt, ran⟩ | refused := normalise_read id space read
    · have also := (normalise_ok_iff id space).mpr ⟨rfl, (same items).mp spelt, by rw [other]; rfl⟩
      exact .inl ⟨items, ran, also⟩
    · obtain ⟨items, spelt, ran⟩ | alsoRefused := normalise_read id space other
      · have also := (normalise_ok_iff id space).mpr ⟨rfl, (same items).mpr spelt, by rw [read]; rfl⟩
        exact .inl ⟨items, also, ran⟩
      · exact .inr (.inl ⟨refused, alsoRefused⟩)

/-- A world that holds a loop over a step, as tables and as typed items. -/
def World.pairing : World where
  heap :=
    { objects := #[.list #[.ref 1], .dict #[(.str "steps", .ref 2), (.str "while", .str "go")], .list #[.ref 3],
        .dict #[(.str "id", .str "a")], .list #[.ref 5],
        .record .loopBlock #[("while_", .str "go"), ("steps", .ref 6), ("condition", .nothing)], .list #[.ref 7],
        .record .stepRef #[("id", .str "a"), ("input", .nothing), ("condition", .nothing)]] }

open Grammar in
theorem typed_loop_normalised : normalise (.str "s") (.ref 4) (prefixValue none) .pairing =
    .ok [.loop (.source "go") [.step "a" .nothing none] none] .pairing := by
  have outer : World.pairing.heap.object 1 = .dict #[(.str "steps", .ref 2), (.str "while", .str "go")] := rfl
  have inner : World.pairing.heap.object 3 = .dict #[(.str "id", .str "a")] := rfl
  have typedOuter : World.pairing.heap.object 5 =
      .record .loopBlock #[("while_", .str "go"), ("steps", .ref 6), ("condition", .nothing)] := rfl
  have typedInner : World.pairing.heap.object 7 =
      .record .stepRef #[("id", .str "a"), ("input", .nothing), ("condition", .nothing)] := rfl
  have step : Renoted World.pairing.heap (.ref 3) (.ref 7) :=
    .step (.step inner (by simp [Entries.Within]) rfl) (.typedStep typedInner)
  have steps : RenotedRow World.pairing.heap (.ref 2) (.ref 6) := .rows rfl rfl (.cons step .nil)
  have loop : Renoted World.pairing.heap (.ref 1) (.ref 5) :=
    .loop (.loop outer (by simp [Entries.Distinct]; decide) (by simp [Entries.Within]) rfl rfl) (.typedLoop typedOuter) steps
  have accepted : normalise (.str "s") (.ref 0) (prefixValue none) .pairing =
      .ok [.loop (.source "go") [.step "a" .nothing none] none] .pairing := rfl
  obtain ⟨-, ⟨items, first, second⟩ | ⟨⟨_, _, -, refused⟩, -⟩ | ⟨⟨_, _, _, raised, -⟩, -⟩⟩ :=
    notations_interchangeable (.str "s") none (.rows rfl rfl (.cons loop .nil) : RenotedRow _ (.ref 0) (.ref 4))
  · cases accepted.symm.trans first
    exact second
  · obtain ⟨_, _, -, refused⟩ | ⟨-, _, _, raised⟩ := refused
    · cases accepted.symm.trans refused
    · cases accepted.symm.trans raised
  · cases accepted.symm.trans raised

/-- A world that holds two steps, of which the first one is written as a table and as a typed item, and the second one has two
more keys, which have no order. -/
def World.disordering : World where
  heap :=
    { objects := #[.list #[.ref 1, .ref 2], .dict #[(.str "id", .str "a")],
        .dict #[(.str "id", .str "b"), (.int 1, .int 2), (.str "x", .int 3)],
        .record .stepRef #[("id", .str "a"), ("input", .nothing), ("condition", .nothing)], .list #[.ref 3, .ref 2]] }

/-- In neither notation of the first step are the keys told that the second step has beyond its own: what comes of both
schemas is an error of the sorting. -/
theorem mixed_keys_told_in_neither : Grammar.RenotedRow World.disordering.heap (.ref 0) (.ref 4) ∧
    (∃ h', normalise (.str "s") (.ref 0) (prefixValue none) .disordering =
        .error (.stopped (.raised (.ref 5))) { World.disordering with heap := h' } ∧
      h'.object 5 = .error .type [.str "'<' not supported between instances of 'str' and 'int'"] #[]) ∧
    ∃ h', normalise (.str "s") (.ref 4) (prefixValue none) .disordering =
        .error (.stopped (.raised (.ref 5))) { World.disordering with heap := h' } ∧
      h'.object 5 = .error .type [.str "'<' not supported between instances of 'str' and 'int'"] #[] := by
  have table : World.disordering.heap.object 1 = .dict #[(.str "id", .str "a")] := rfl
  have typed : World.disordering.heap.object 3 =
      .record .stepRef #[("id", .str "a"), ("input", .nothing), ("condition", .nothing)] := rfl
  have step : Grammar.Renoted World.disordering.heap (.ref 1) (.ref 3) :=
    .step (.step table (by simp [Entries.Within]) rfl) (.typedStep typed)
  exact ⟨.rows rfl rfl (.cons step (.cons .same .nil)), ⟨_, rfl, rfl⟩, _, rfl, rfl⟩

end Workflow
