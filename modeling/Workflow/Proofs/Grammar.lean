import Mathlib.Data.List.Forall2
import Workflow.Proofs.Fallible
import Workflow.Proofs.Registrations

/-! The grammar of schemas, said of values as they are written, and that the check of a schema accepts exactly what it
says. -/

namespace Workflow
open Script (Value Heap Entries Fields)

/-- Every key is one of some names. -/
def Script.Entries.Within (entries : Entries) (names : List String) : Prop :=
  ∀ entry ∈ entries, ∃ name ∈ names, entry.1 = .str name

/-- What a typed item holds under a name. -/
def Script.Fields.member (fields : Fields) (name : String) : Value := (fields.get? name).getD .nothing

namespace Grammar

/-- A condition is a text that is not blank, or something to call. -/
inductive Tests (h : Heap) : Value → Condition → Prop
  | source {text : String} {c : Char} (inside : c ∈ text.toList) (visible : Text.isBlank c = false) :
      Tests h (.str text) (.source text)
  | call {f : Value} (callable : f.isCallable h = true) : Tests h f (.call f)

/-- The condition of an item, which may be missing. -/
inductive Gates (h : Heap) : Value → Option Condition → Prop
  | free : Gates h .nothing none
  | gate {v : Value} {test : Condition} (tests : Tests h v test) : Gates h v (some test)

/-- The id of the step that is meant, where a prefix is given or not. An id that has a prefix of its own keeps it. -/
def fullId (space : Option String) (id : String) : String :=
  if space.getD "" = "" ∨ '/' ∈ id.toList then id else space.getD "" ++ "/" ++ id

/-- The values in a row, which is a list or a tuple. -/
def rowOf? (h : Heap) : Value → Option (List Value)
  | .tuple values => some values
  | .ref a =>
    match h.object a with
    | .list values => some values.toList
    | _ => none
  | _ => none

/-- The values that are looked at as items: texts, tables and typed items. -/
def IsItem (h : Heap) : Value → Prop
  | .str _ => True
  | .ref a =>
    match h.object a with
    | .dict _ => True
    | .record kind _ => kind ∈ [.stepRef, .subflowBlock, .loopBlock, .controlMarker]
    | _ => False
  | _ => False

mutual

/-- A value spells an item, inside a loop or outside of all loops. -/
inductive Spells (h : Heap) (resolve : String → String) : (inLoop : Bool) → Value → Item → Prop
  | name {inLoop : Bool} {id : String} (present : id ≠ "") :
      Spells h resolve inLoop (.str id) (.step (resolve id) .nothing none)
  | step {inLoop : Bool} {a : Script.Addr} {entries : Entries} {id : String} {gate : Option Condition}
      (found : h.object a = .dict entries) (only : entries.Within ["id", "input", "condition"])
      (named : entries.named? "id" = some (.str id)) (present : id ≠ "")
      (gated : Gates h ((entries.named? "condition").getD .nothing) gate) :
      Spells h resolve inLoop (.ref a)
        (.step (resolve id) ((entries.named? "input").getD .nothing) gate)
  | block {inLoop : Bool} {a : Script.Addr} {entries : Entries} {steps : Value} {items : List Item}
      {gate : Option Condition} (found : h.object a = .dict entries)
      (only : entries.Within ["steps", "condition", "while"]) (free : entries.named? "while" = none)
      (inside : entries.named? "steps" = some steps) (spelt : SpellsRow h resolve inLoop steps items)
      (gated : Gates h ((entries.named? "condition").getD .nothing) gate) :
      Spells h resolve inLoop (.ref a) (.block items gate)
  | loop {inLoop : Bool} {a : Script.Addr} {entries : Entries} {steps v : Value} {test : Condition} {items : List Item}
      {gate : Option Condition} (found : h.object a = .dict entries)
      (only : entries.Within ["steps", "condition", "while"]) (tested : entries.named? "while" = some v)
      (tests : Tests h v test) (inside : entries.named? "steps" = some steps) (spelt : SpellsRow h resolve true steps items)
      (gated : Gates h ((entries.named? "condition").getD .nothing) gate) :
      Spells h resolve inLoop (.ref a) (.loop test items gate)
  | marker {a : Script.Addr} {entries : Entries} {signal : Signal} {v : Value} {test : Condition}
      (found : h.object a = .dict entries) (only : entries.Within [signal.name])
      (named : entries.named? signal.name = some v) (tests : Tests h v test) :
      Spells h resolve true (.ref a) (.marker signal test)
  | typedStep {inLoop : Bool} {a : Script.Addr} {fields : Fields} {id : String} {gate : Option Condition}
      (found : h.object a = .record .stepRef fields) (named : fields.member "id" = .str id) (present : id ≠ "")
      (gated : Gates h (fields.member "condition") gate) :
      Spells h resolve inLoop (.ref a) (.step (resolve id) (fields.member "input") gate)
  | typedBlock {inLoop : Bool} {a : Script.Addr} {fields : Fields} {items : List Item} {gate : Option Condition}
      (found : h.object a = .record .subflowBlock fields)
      (spelt : SpellsRow h resolve inLoop (fields.member "steps") items) (gated : Gates h (fields.member "condition") gate) :
      Spells h resolve inLoop (.ref a) (.block items gate)
  | typedLoop {inLoop : Bool} {a : Script.Addr} {fields : Fields} {test : Condition} {items : List Item}
      {gate : Option Condition} (found : h.object a = .record .loopBlock fields)
      (tests : Tests h (fields.member "while_") test) (spelt : SpellsRow h resolve true (fields.member "steps") items)
      (gated : Gates h (fields.member "condition") gate) :
      Spells h resolve inLoop (.ref a) (.loop test items gate)
  | typedMarker {a : Script.Addr} {fields : Fields} {signal : Signal} {test : Condition}
      (found : h.object a = .record .controlMarker fields) (named : fields.member "kind" = .str signal.name)
      (tests : Tests h (fields.member "condition") test) :
      Spells h resolve true (.ref a) (.marker signal test)

/-- A list or a tuple spells a row of items. -/
inductive SpellsRow (h : Heap) (resolve : String → String) : (inLoop : Bool) → Value → List Item → Prop
  | tuple {inLoop : Bool} {values : List Value} {items : List Item} (spelt : SpellsAll h resolve inLoop values items) :
      SpellsRow h resolve inLoop (.tuple values) items
  | list {inLoop : Bool} {a : Script.Addr} {values : Array Value} {items : List Item} (found : h.object a = .list values)
      (spelt : SpellsAll h resolve inLoop values.toList items) :
      SpellsRow h resolve inLoop (.ref a) items

/-- Some values spell one item each, in their order. -/
inductive SpellsAll (h : Heap) (resolve : String → String) : (inLoop : Bool) → List Value → List Item → Prop
  | nil {inLoop : Bool} : SpellsAll h resolve inLoop [] []
  | cons {inLoop : Bool} {v : Value} {rest : List Value} {i : Item} {items : List Item}
      (first : Spells h resolve inLoop v i) (others : SpellsAll h resolve inLoop rest items) :
      SpellsAll h resolve inLoop (v :: rest) (i :: items)

end

variable {h : Heap} {resolve : String → String} {inLoop : Bool} {v : Value}

theorem Spells.isItem {i : Item} (spells : Spells h resolve inLoop v i) : IsItem h v := by
  cases spells with
  | name => trivial
  | step found | block found | loop found | marker found => simp only [IsItem, found]
  | typedStep found | typedBlock found | typedLoop found | typedMarker found => simp [IsItem, found]

theorem not_isItem_of_row {values : List Value} (opened : rowOf? h v = some values) : ¬IsItem h v := by
  cases v with
  | tuple => exact id
  | ref a =>
    cases found : h.object a with
    | list => simp only [IsItem, found, not_false_eq_true]
    | _ => simp only [rowOf?, found, reduceCtorEq] at opened
  | _ => cases opened

theorem SpellsRow.opened {items : List Item} (spelt : SpellsRow h resolve inLoop v items) :
    ∃ values, rowOf? h v = some values ∧ SpellsAll h resolve inLoop values items := by
  cases spelt with
  | tuple spelt => exact ⟨_, rfl, spelt⟩
  | list found spelt => exact ⟨_, by simp only [rowOf?, found], spelt⟩

theorem SpellsRow.of_opened {values : List Value} {items : List Item} (opened : rowOf? h v = some values)
    (spelt : SpellsAll h resolve inLoop values items) : SpellsRow h resolve inLoop v items := by
  cases v with
  | tuple =>
    cases opened
    exact .tuple spelt
  | ref a =>
    cases found : h.object a with
    | list =>
      simp only [rowOf?, found] at opened
      cases opened
      exact .list found spelt
    | _ => simp only [rowOf?, found, reduceCtorEq] at opened
  | _ => cases opened

/-- What is directly inside of a value where more of a schema may stand. -/
def parts (h : Heap) : Value → List Value
  | .tuple values => values
  | .ref a =>
    match h.object a with
    | .list values => values.toList
    | .dict entries => (entries.toList.filter (·.1.sameKey (.str "steps"))).map (·.2)
    | .record .subflowBlock fields => [Script.Fields.member fields "steps"]
    | .record .loopBlock fields => [Script.Fields.member fields "steps"]
    | _ => []
  | _ => []

/-- Going on into the parts of a value comes to an end. -/
def Grounded (h : Heap) (v : Value) : Prop := Acc (fun part whole => part ∈ parts h whole) v

end Grammar

theorem Script.Value.sameKey_str (v : Value) (s : String) : v.sameKey (.str s) = true ↔ v = .str s := by
  cases v with
  | str t =>
    have texts : (Value.str t).sameKey (.str s) = (t == s) := rfl
    rw [texts, beq_iff_eq, Value.str.injEq]
  | _ => exact iff_of_false Bool.false_ne_true (fun same => by cases same)

namespace Draft
open Grammar

theorem bind_ok_iff {c : Checked α} {k : α → Checked β} {b : β} : c >>= k = .ok b ↔ ∃ a, c = .ok a ∧ k a = .ok b := by
  constructor
  · exact Fallible.bind_ok
  · rintro ⟨a, rfl, found⟩
    exact found

theorem at_ok_iff {place : Place} {c : Checked α} {a : α} : Checked.at place c = .ok a ↔ c = .ok a := by
  cases c <;> simp [Checked.at]

theorem map_ok_iff {f : α → β} {c : Checked α} {b : β} : f <$> c = .ok b ↔ ∃ a, c = .ok a ∧ b = f a := by
  cases c with
  | error defect => simp [Functor.map, Except.map]
  | ok a => simp [Functor.map, Except.map, eq_comm]

theorem not_refused {cause : Cause} {k : α → Checked β} {b : β} : ¬(refuse cause >>= k) = .ok b := nofun

theorem mapM_some {f : α → Option β} {values : List α} {found : List β} (made : values.mapM f = some found) :
    List.Forall₂ (fun a b => f a = some b) values found := by
  induction values generalizing found with
  | nil =>
    cases made
    exact .nil
  | cons a rest ih =>
    simp only [List.mapM_cons, bind, Option.bind_eq_some_iff] at made
    obtain ⟨b, first, others, later, same⟩ := made
    cases same
    exact .cons first (ih later)

variable {h : Heap} {v : Value}

theorem value_ofMember (v : Value) : (ofMember h v).value = v := by
  unfold ofMember
  split
  · rfl
  · rfl
  · split <;> rfl

theorem visible_iff (text : String) :
    text.toList.all Text.isBlank = false ↔ ∃ c ∈ text.toList, Text.isBlank c = false := by
  simp

theorem condition_ofMember {test : Condition} : (ofMember h v).condition = .ok test ↔ Tests h v test := by
  constructor
  · intro passed
    unfold ofMember at passed
    split at passed
    · cases passed
    · simp only [condition] at passed
      split at passed
      · cases passed
      · next visible =>
        cases passed
        obtain ⟨c, inside, visible⟩ := (visible_iff _).mp (Bool.eq_false_iff.mpr visible)
        exact .source inside visible
    · split at passed
      · next callable =>
        cases passed
        exact .call callable
      · cases passed
  · intro tests
    cases tests with
    | @source text c inside visible =>
      have seen : text.toList.all Text.isBlank = false := (visible_iff text).mpr ⟨c, inside, visible⟩
      simp [ofMember, condition, seen]
    | call callable =>
      unfold ofMember
      split
      · cases callable
      · cases callable
      · rw [if_pos callable]
        rfl

theorem gate_ofMember {gate : Option Condition} : (ofMember h v).gate = .ok gate ↔ Gates h v gate := by
  by_cases missing : v = .nothing
  · subst missing
    constructor
    · intro passed
      cases passed
      exact .free
    · intro gates
      cases gates with
      | free => rfl
      | gate tests =>
        cases tests with
        | call callable => cases callable
  · have present : ofMember h v ≠ .nothing := by
      unfold ofMember
      split
      · exact absurd rfl missing
      · exact nofun
      · split <;> exact nofun
    have checked : (ofMember h v).gate = (do return some (← (ofMember h v).condition)) := by
      unfold Draft.gate
      split
      · next same => exact absurd same present
      · rfl
    rw [checked, bind_ok_iff]
    constructor
    · rintro ⟨test, passed, same⟩
      cases same
      exact .gate (condition_ofMember.mp passed)
    · intro gates
      cases gates with
      | free => exact absurd rfl missing
      | gate tests => exact ⟨_, condition_ofMember.mpr tests, rfl⟩

theorem stepId_ofMember {id : String} : (ofMember h v).stepId = .ok id ↔ v = .str id ∧ id ≠ "" := by
  unfold ofMember
  split
  · simp [stepId, refuse]
  · next text =>
    simp only [stepId]
    by_cases empty : text = ""
    · subst empty
      constructor
      · intro passed
        cases passed
      · intro spelt
        cases spelt.1
        exact absurd rfl spelt.2
    · simp only [String.isEmpty_iff, empty, if_false]
      constructor
      · intro same
        cases same
        exact ⟨rfl, empty⟩
      · intro spelt
        cases spelt.1
        rfl
  · split <;> simp_all [stepId, refuse]

theorem signal_ofMember {signal : Signal} : (ofMember h v).signal = .ok signal ↔ v = .str signal.name := by
  unfold ofMember
  split
  · simp [Draft.signal, refuse]
  · unfold Draft.signal
    split
    · cases signal <;> simp_all [Signal.name]
    · cases signal <;> simp_all [Signal.name]
    · cases signal <;> simp_all [Signal.name, refuse]
  · split <;> simp_all [Draft.signal, refuse]

/-! The entries of a table, and their drafts. -/

/-- An entry and its draft. Only what stands under steps is read as a row. -/
structure Drafted (h : Heap) (depth : Nat) (entry : Value × Value) (member : Value × Draft) : Prop where
  key : member.1 = entry.1
  row : entry.1 = .str "steps" → ofValue? h depth entry.2 = some member.2
  plain : entry.1 ≠ .str "steps" → member.2 = ofMember h entry.2

variable {depth : Nat} {entries : Entries} {members : List (Value × Draft)}

theorem drafted (made : entries.toList.mapM (fun (key, w) => do
      if key.sameKey (.str "steps") then return (key, ← ofValue? h depth w) else return (key, ofMember h w)) = some members) :
    List.Forall₂ (Drafted h depth) entries.toList members := by
  apply (mapM_some made).imp
  rintro ⟨key, w⟩ member same
  by_cases steps : key = .str "steps"
  · dsimp only at same
    rw [if_pos ((Script.Value.sameKey_str _ _).mpr steps)] at same
    simp only [bind, Option.bind_eq_some_iff] at same
    obtain ⟨d, read, same⟩ := same
    cases same
    exact ⟨rfl, fun _ => read, fun other => absurd steps other⟩
  · dsimp only at same
    rw [if_neg (mt (Script.Value.sameKey_str _ _).mp steps)] at same
    cases same
    exact ⟨rfl, fun same => absurd same steps, fun _ => rfl⟩

/-- What is read from a value, by what the value is. Only the parts are read less deep, and all that is no item and no row
is read as nothing in particular. -/
inductive Read (h : Heap) (depth : Nat) : Value → Draft → Prop
  | text {id : String} : Read h depth (.str id) (.text id)
  | row {v : Value} {values : List Value} {drafts : List Draft} (opened : rowOf? h v = some values)
      (each : List.Forall₂ (fun v d => ofValue? h depth v = some d) values drafts) : Read h depth v (.row v drafts)
  | table {a : Script.Addr} {entries : Entries} {members : List (Value × Draft)} (found : h.object a = .dict entries)
      (each : List.Forall₂ (Drafted h depth) entries.toList members) : Read h depth (.ref a) (.table (.ref a) members)
  | step {a : Script.Addr} {fields : Fields} (found : h.object a = .record .stepRef fields) :
      Read h depth (.ref a) (.step (.ref a) (ofMember h (fields.member "id")) (ofMember h (fields.member "input"))
        (ofMember h (fields.member "condition")))
  | block {a : Script.Addr} {fields : Fields} {steps : Draft} (found : h.object a = .record .subflowBlock fields)
      (inside : ofValue? h depth (fields.member "steps") = some steps) :
      Read h depth (.ref a) (.block (.ref a) steps (ofMember h (fields.member "condition")))
  | loop {a : Script.Addr} {fields : Fields} {steps : Draft} (found : h.object a = .record .loopBlock fields)
      (inside : ofValue? h depth (fields.member "steps") = some steps) :
      Read h depth (.ref a)
        (.loop (.ref a) (ofMember h (fields.member "while_")) steps (ofMember h (fields.member "condition")))
  | marker {a : Script.Addr} {fields : Fields} (found : h.object a = .record .controlMarker fields) :
      Read h depth (.ref a)
        (.marker (.ref a) (ofMember h (fields.member "kind")) (ofMember h (fields.member "condition")))
  | plain {v : Value} {d : Draft} (blank : d = .nothing ∧ v = .nothing ∨ d = .callable v ∨ d = .other v)
      (noItem : ¬IsItem h v) (rowless : rowOf? h v = none) : Read h depth v d

theorem Read.member (noItem : ¬IsItem h v) (rowless : rowOf? h v = none) : Read h depth v (ofMember h v) := by
  refine .plain ?_ noItem rowless
  unfold ofMember
  split
  · exact .inl ⟨rfl, rfl⟩
  · exact absurd trivial noItem
  · split
    · exact .inr (.inl rfl)
    · exact .inr (.inr rfl)

theorem Read.of_ofValue? {d : Draft} (read : ofValue? h (depth + 1) v = some d) : Read h depth v d := by
  cases v with
  | str id =>
    cases read
    exact .text
  | tuple values =>
    obtain ⟨drafts, made, same⟩ := Option.bind_eq_some_iff.mp read
    cases same
    exact .row rfl (mapM_some made)
  | ref a =>
    cases found : h.object a with
    | list values =>
      simp only [ofValue?, found] at read
      obtain ⟨drafts, made, same⟩ := Option.bind_eq_some_iff.mp read
      cases same
      exact .row (by simp only [rowOf?, found]) (mapM_some made)
    | dict entries =>
      simp only [ofValue?, found] at read
      obtain ⟨members, made, same⟩ := Option.bind_eq_some_iff.mp read
      cases same
      exact .table found (drafted made)
    | record kind fields =>
      simp only [ofValue?, found] at read
      cases kind with
      | stepRef =>
        cases read
        exact .step found
      | subflowBlock =>
        obtain ⟨steps, inside, same⟩ := Option.bind_eq_some_iff.mp read
        cases same
        exact .block found inside
      | loopBlock =>
        obtain ⟨steps, inside, same⟩ := Option.bind_eq_some_iff.mp read
        cases same
        exact .loop found inside
      | controlMarker =>
        cases read
        exact .marker found
      | _ =>
        cases read
        exact .plain (.inr (.inr rfl)) (by simp [IsItem, found]) (by simp only [rowOf?, found])
    | _ =>
      simp only [ofValue?, found] at read
      cases read
      exact .member (by simp only [IsItem, found, not_false_eq_true]) (by simp only [rowOf?, found])
  | _ =>
    cases read
    exact .member id rfl

theorem keys_drafted {list : List (Value × Value)} (read : List.Forall₂ (Drafted h depth) list members) :
    members.map (·.1) = list.map (·.1) := by
  induction read with
  | nil => rfl
  | cons same _ ih => rw [List.map_cons, List.map_cons, same.key, ih]

theorem keysBeside_iff {names : List String} (read : List.Forall₂ (Drafted h depth) entries.toList members) :
    keysBeside names members = [] ↔ entries.Within names := by
  simp [keysBeside, keys_drafted read, List.filter_eq_nil_iff, Entries.Within, Script.Value.sameKey_str]

/-- What is found under a name in both: an entry and its draft, or nothing. -/
theorem find_drafted {list : List (Value × Value)} (name : String) (read : List.Forall₂ (Drafted h depth) list members) :
    list.find? (·.1.sameKey (.str name)) = none ∧ members.find? (·.1.sameKey (.str name)) = none ∨
    ∃ entry member, list.find? (·.1.sameKey (.str name)) = some entry ∧
      members.find? (·.1.sameKey (.str name)) = some member ∧ entry.1 = .str name ∧ Drafted h depth entry member := by
  induction read with
  | nil => exact .inl ⟨rfl, rfl⟩
  | @cons entry member list members same _ ih =>
    by_cases here : entry.1 = .str name
    · have key : entry.1.sameKey (.str name) = true := (Script.Value.sameKey_str _ _).mpr here
      refine .inr ⟨entry, member, ?_, ?_, here, same⟩
      · simp [key]
      · simp [same.key, key]
    · have key : entry.1.sameKey (.str name) = false := Bool.eq_false_iff.mpr (mt (Script.Value.sameKey_str _ _).mp here)
      simpa [List.find?_cons, same.key, key] using ih

theorem named?_eq (name : String) :
    entries.named? name = (entries.toList.find? (·.1.sameKey (.str name))).map (·.2) := by
  simp [Entries.named?, Entries.get?]

theorem member?_drafted {name : String} (read : List.Forall₂ (Drafted h depth) entries.toList members)
    (other : name ≠ "steps") : member? name members = (entries.named? name).map (ofMember h) := by
  rw [named?_eq, member?]
  obtain ⟨missing, nowhere⟩ | ⟨entry, member, found, there, key, same⟩ := find_drafted name read
  · rw [missing, nowhere]
    rfl
  · rw [found, there, Option.map_some, Option.map_some, Option.map_some, same.plain]
    rw [key]
    simpa using other

theorem member?_steps (read : List.Forall₂ (Drafted h depth) entries.toList members) :
    entries.named? "steps" = none ∧ member? "steps" members = none ∨
    ∃ w d, entries.named? "steps" = some w ∧ member? "steps" members = some d ∧ ofValue? h depth w = some d := by
  rw [named?_eq, member?]
  obtain ⟨missing, nowhere⟩ | ⟨entry, member, found, there, key, same⟩ := find_drafted "steps" read
  · rw [missing, nowhere]
    exact .inl ⟨rfl, rfl⟩
  · rw [found, there]
    exact .inr ⟨_, _, rfl, rfl, same.row key⟩

theorem memberRows_eq {space : Option String} {inLoop : Bool} {d : Draft} (found : member? "steps" members = some d) :
    memberRows space inLoop members = d.rows space inLoop := by
  induction members with
  | nil => cases found
  | cons entry rest ih =>
    obtain ⟨key, first⟩ := entry
    rw [memberRows]
    by_cases here : key.sameKey (.str "steps") = true
    · rw [if_pos here]
      simp only [member?, List.find?_cons, here] at found
      cases found
      rfl
    · rw [if_neg here]
      apply ih
      simpa [member?, List.find?_cons, here] using found

/-! What each form of a draft stands for. -/

section
variable (space : Option String) (inLoop : Bool)

theorem item_text (id : String) :
    (Draft.text id).item space inLoop = (do return .step (resolveStepId space (← (Draft.text id).stepId)) .nothing none) :=
  rfl

theorem item_step (v : Value) (id input gate : Draft) : (Draft.step v id input gate).item space inLoop = (do
    let id ← id.stepId
    return .step (resolveStepId space id) input.value (← Checked.at .gate gate.gate)) := rfl

theorem item_block (v : Value) (steps gate : Draft) : (Draft.block v steps gate).item space inLoop = (do
    let gate ← Checked.at .gate gate.gate
    return .block (← Checked.at .steps (steps.rows space inLoop)) gate) := rfl

theorem item_loop (v : Value) (test steps gate : Draft) : (Draft.loop v test steps gate).item space inLoop = (do
    let test ← Checked.at .test test.condition
    let gate ← Checked.at .gate gate.gate
    return .loop test (← Checked.at .steps (steps.rows space true)) gate) := rfl

theorem item_marker (v : Value) (kind test : Draft) :
    (Draft.marker v kind test).item space inLoop = (do markerItem inLoop (← kind.signal) test) := rfl

theorem item_table (v : Value) (members : List (Value × Draft)) : (Draft.table v members).item space inLoop =
    tableItem space inLoop members (fun _ => memberRows space (inLoop || (member? "while" members).isSome) members) := rfl

theorem items_cons (index : Nat) (d : Draft) (rest : List Draft) : Draft.items space inLoop index (d :: rest) = (do
    let found ← Checked.at (.item index) (d.item space inLoop)
    return found :: (← Draft.items space inLoop (index + 1) rest)) := rfl

end

/-! Each kind of item. -/

variable {space : Option String} {inLoop : Bool} {a : Script.Addr}

theorem markerItem_ok {signal : Signal} {test : Draft} {i : Item} :
    markerItem inLoop signal test = .ok i ↔ inLoop = true ∧ ∃ c, test.condition = .ok c ∧ i = .marker signal c := by
  cases inLoop with
  | false => simp [markerItem, not_refused]
  | true => simp [markerItem, map_ok_iff, at_ok_iff]

theorem absent {names : List String} (only : entries.Within names) {name : String} (other : name ∉ names) :
    entries.named? name = none := by
  rw [named?_eq]
  cases found : entries.toList.find? (·.1.sameKey (.str name)) with
  | none => rfl
  | some entry =>
    obtain ⟨known, member, same⟩ := only entry (Array.mem_toList_iff.mp (List.mem_of_find?_eq_some found))
    have met := List.find?_some found
    have key : entry.1 = .str name := (Script.Value.sameKey_str _ _).mp met
    cases same.symm.trans key
    exact absurd member other

section
variable (read : List.Forall₂ (Drafted h depth) entries.toList members)
include read

theorem markerTable_ok {signal : Signal} {i : Item} :
    markerTable inLoop signal (ofMember h v) members = .ok i ↔
      entries.Within [signal.name] ∧ inLoop = true ∧ ∃ c, Tests h v c ∧ i = .marker signal c := by
  rw [← keysBeside_iff read, markerTable]
  cases keysBeside [signal.name] members with
  | nil => simp [markerItem_ok, condition_ofMember]
  | cons key others => simp [not_refused]

theorem stepTable_ok {gate : Option Condition} {i : Item} :
    stepTable space (ofMember h v) gate members = .ok i ↔
      entries.Within ["id", "input", "condition"] ∧ ∃ id, v = .str id ∧ id ≠ "" ∧
        i = .step (resolveStepId space id) ((entries.named? "input").getD .nothing) gate := by
  rw [← keysBeside_iff read, stepTable]
  have input : ((member? "input" members).map value).getD .nothing = (entries.named? "input").getD .nothing := by
    rw [member?_drafted read (by decide)]
    cases entries.named? "input" with
    | none => rfl
    | some w => exact value_ofMember w
  cases keysBeside ["id", "input", "condition"] members with
  | nil => simp [map_ok_iff, stepId_ofMember, input, and_assoc]
  | cons key others => simp [not_refused]

theorem blockTable_ok {gate : Option Condition} {steps : Unit → Checked (List Item)} {i : Item} :
    blockTable gate members steps = .ok i ↔
      entries.Within ["steps", "condition", "while"] ∧ ∃ items, steps () = .ok items ∧
        (entries.named? "while" = none ∧ i = .block items gate ∨
          ∃ w test, entries.named? "while" = some w ∧ Tests h w test ∧ i = .loop test items gate) := by
  rw [← keysBeside_iff read, blockTable, member?_drafted read (by decide)]
  cases keysBeside ["steps", "condition", "while"] members with
  | nil =>
    cases entries.named? "while" with
    | none => simp [map_ok_iff, at_ok_iff]
    | some w =>
      simp only [List.isEmpty_nil, Bool.not_true, Bool.false_eq_true, if_false, Option.map_some, bind_ok_iff, at_ok_iff,
        condition_ofMember, true_and]
      constructor
      · rintro ⟨test, tests, items, inside, same⟩
        cases same
        exact ⟨items, inside, .inr ⟨w, test, rfl, tests, rfl⟩⟩
      · rintro ⟨items, inside, ⟨impossible, -⟩ | ⟨_, test, ⟨⟩, tests, rfl⟩⟩
        · cases impossible
        · exact ⟨test, tests, items, inside, rfl⟩
  | cons key others => simp [not_refused]

/-- The draft of the condition that a table holds, which may be missing. -/
theorem gateEntry_eq : (member? "condition" members).getD .nothing = ofMember h ((entries.named? "condition").getD .nothing) := by
  rw [member?_drafted read (by decide)]
  cases entries.named? "condition" <;> rfl

theorem tableItem_marked (signal : Signal) (named : entries.named? signal.name = some v)
    (only : entries.Within [signal.name] ∨ signal = .breakLoop ∨ entries.named? "break" = none)
    (steps : Unit → Checked (List Item)) :
    tableItem space inLoop members steps = markerTable inLoop signal (ofMember h v) members := by
  have breaks : member? "break" members = _ := member?_drafted read (by decide)
  have continues : member? "continue" members = _ := member?_drafted read (by decide)
  cases signal with
  | breakLoop =>
    rw [show entries.named? "break" = some v from named] at breaks
    simp only [tableItem, breaks, Option.map_some]
  | continueLoop =>
    have broken : entries.named? "break" = none := by
      obtain only | impossible | broken := only
      · exact absent only (by decide)
      · cases impossible
      · exact broken
    rw [broken] at breaks
    rw [show entries.named? "continue" = some v from named] at continues
    simp only [tableItem, breaks, continues, Option.map_none, Option.map_some]

theorem tableItem_unmarked (broken : entries.named? "break" = none) (continued : entries.named? "continue" = none)
    (steps : Unit → Checked (List Item)) : tableItem space inLoop members steps = (do
      let gate ← Checked.at .gate (ofMember h ((entries.named? "condition").getD .nothing)).gate
      match entries.named? "id", entries.named? "steps" with
      | some v, _ => stepTable space (ofMember h v) gate members
      | none, some _ => blockTable gate members steps
      | none, none => refuse .shapeless) := by
  have breaks : member? "break" members = _ := member?_drafted read (by decide)
  have continues : member? "continue" members = _ := member?_drafted read (by decide)
  have ids : member? "id" members = _ := member?_drafted read (by decide)
  rw [broken] at breaks
  rw [continued] at continues
  simp only [tableItem, breaks, continues, ids, Option.map_none, gateEntry_eq read]
  cases entries.named? "id" with
  | some v => rfl
  | none =>
    obtain ⟨missing, nowhere⟩ | ⟨w, d, row, there, -⟩ := member?_steps read
    · simp only [missing, nowhere, Option.map_none]
    · simp only [row, there, Option.map_none]

/-- A table without a marker has a gate, and then is a step or holds some rows. -/
theorem tableItem_plain (broken : entries.named? "break" = none) (continued : entries.named? "continue" = none)
    (steps : Unit → Checked (List Item)) {i : Item} :
    tableItem space inLoop members steps = .ok i ↔ ∃ gate, Gates h ((entries.named? "condition").getD .nothing) gate ∧
      ((∃ v, entries.named? "id" = some v ∧ stepTable space (ofMember h v) gate members = .ok i) ∨
        (entries.named? "id" = none ∧ (entries.named? "steps").isSome ∧ blockTable gate members steps = .ok i)) := by
  simp only [tableItem_unmarked read broken continued, bind_ok_iff, at_ok_iff, gate_ofMember]
  refine exists_congr (fun gate => and_congr_right (fun _ => ?_))
  cases entries.named? "id" with
  | some v => simp
  | none => cases entries.named? "steps" <;> simp [refuse]

/-- A table passes exactly if it spells an item, where what stands under steps is read as it should be. -/
theorem tableItem_ok (found : h.object a = .dict entries) {steps : Unit → Checked (List Item)}
    (inside : ∀ w, entries.named? "steps" = some w → ∀ items, steps () = .ok items ↔
      SpellsRow h (resolveStepId space) (inLoop || (entries.named? "while").isSome) w items) {i : Item} :
    tableItem space inLoop members steps = .ok i ↔ Spells h (resolveStepId space) inLoop (.ref a) i := by
  constructor
  · intro passed
    cases broken : entries.named? "break" with
    | some v =>
      rw [tableItem_marked read .breakLoop broken (.inr (.inl rfl))] at passed
      obtain ⟨only, rfl, test, tests, rfl⟩ := (markerTable_ok read).mp passed
      exact .marker found only broken tests
    | none =>
      cases continued : entries.named? "continue" with
      | some v =>
        rw [tableItem_marked read .continueLoop continued (.inr (.inr broken))] at passed
        obtain ⟨only, rfl, test, tests, rfl⟩ := (markerTable_ok read).mp passed
        exact .marker found only continued tests
      | none =>
        obtain ⟨gate, gated, ⟨v, named, passed⟩ | ⟨-, row, passed⟩⟩ := (tableItem_plain read broken continued _).mp passed
        · obtain ⟨only, id, rfl, present, rfl⟩ := (stepTable_ok read).mp passed
          exact .step found only named present gated
        · obtain ⟨w, row⟩ := Option.isSome_iff_exists.mp row
          obtain ⟨only, items, rows, passed⟩ := (blockTable_ok read).mp passed
          have spelt := (inside w row items).mp rows
          obtain ⟨free, rfl⟩ | ⟨v, test, tested, tests, rfl⟩ := passed
          · rw [free, Option.isSome_none, Bool.or_false] at spelt
            exact .block found only free row spelt gated
          · rw [tested, Option.isSome_some, Bool.or_true] at spelt
            exact .loop found only tested tests row spelt gated
  · intro spells
    cases spells with
    | step same only named present gated =>
      cases found.symm.trans same
      apply (tableItem_plain read (absent only (by decide)) (absent only (by decide)) _).mpr
      exact ⟨_, gated, .inl ⟨_, named, (stepTable_ok read).mpr ⟨only, _, rfl, present, rfl⟩⟩⟩
    | block same only free row spelt gated =>
      cases found.symm.trans same
      apply (tableItem_plain read (absent only (by decide)) (absent only (by decide)) _).mpr
      rw [free, Option.isSome_none, Bool.or_false] at inside
      refine ⟨_, gated, .inr ⟨absent only (by decide), by rw [row]; rfl, ?_⟩⟩
      exact (blockTable_ok read).mpr ⟨only, _, (inside _ row _).mpr spelt, .inl ⟨free, rfl⟩⟩
    | loop same only tested tests row spelt gated =>
      cases found.symm.trans same
      apply (tableItem_plain read (absent only (by decide)) (absent only (by decide)) _).mpr
      rw [tested, Option.isSome_some, Bool.or_true] at inside
      refine ⟨_, gated, .inr ⟨absent only (by decide), by rw [row]; rfl, ?_⟩⟩
      exact (blockTable_ok read).mpr ⟨only, _, (inside _ row _).mpr spelt, .inr ⟨_, _, tested, tests, rfl⟩⟩
    | marker same only named tests =>
      cases found.symm.trans same
      rw [tableItem_marked read _ named (.inl only)]
      exact (markerTable_ok read).mpr ⟨only, rfl, _, tests, rfl⟩
    | typedStep other => cases found.symm.trans other
    | typedBlock other => cases found.symm.trans other
    | typedLoop other => cases found.symm.trans other
    | typedMarker other => cases found.symm.trans other

end

/-- Where an item may stand, a draft passes exactly if its value spells the item. -/
def Recognised (h : Heap) (space : Option String) (v : Value) (d : Draft) : Prop :=
  (∀ inLoop i, d.item space inLoop = .ok i ↔ Spells h (resolveStepId space) inLoop v i) ∧
    ∀ inLoop items, d.rows space inLoop = .ok items ↔ SpellsRow h (resolveStepId space) inLoop v items

theorem items_ok {values : List Value} {drafts : List Draft} (each : List.Forall₂ (Recognised h space) values drafts)
    (index : Nat) {items : List Item} :
    Draft.items space inLoop index drafts = .ok items ↔ SpellsAll h (resolveStepId space) inLoop values items := by
  induction each generalizing index items with
  | nil =>
    constructor
    · rintro ⟨⟩
      exact .nil
    · rintro ⟨⟩
      rfl
  | @cons v d values drafts first _ ih =>
    simp only [items_cons, bind_ok_iff, at_ok_iff, first.1]
    constructor
    · rintro ⟨i, here, rest, later, same⟩
      cases same
      exact .cons here ((ih _).mp later)
    · rintro ⟨⟩
      next here others => exact ⟨_, here, _, (ih _).mpr others, rfl⟩

/-- What is no row passes as an item at most. -/
theorem rowless_recognised {d : Draft}
    (item : ∀ inLoop i, d.item space inLoop = .ok i ↔ Spells h (resolveStepId space) inLoop v i)
    (refused : ∀ inLoop, d.rows space inLoop = refuse (.notRow v)) (rowless : rowOf? h v = none) : Recognised h space v d := by
  refine ⟨item, fun inLoop items => ?_⟩
  rw [refused]
  refine ⟨nofun, fun spelt => ?_⟩
  obtain ⟨values, opened, -⟩ := spelt.opened
  cases rowless.symm.trans opened

theorem text_recognised (id : String) : Recognised h space (.str id) (.text id) := by
  refine rowless_recognised (fun inLoop i => ?_) (fun _ => rfl) rfl
  rw [item_text, bind_ok_iff]
  constructor
  · rintro ⟨known, passed, same⟩
    cases same
    obtain ⟨same, present⟩ := stepId_ofMember (h := h) (v := .str id).mp passed
    cases same
    exact .name present
  · rintro ⟨⟩
    next present => exact ⟨id, (stepId_ofMember (h := h) (v := .str id)).mpr ⟨rfl, present⟩, rfl⟩

/-- What is read as nothing in particular is neither an item nor a row. -/
theorem plain_recognised {d : Draft} (blank : d = .nothing ∧ v = .nothing ∨ d = .callable v ∨ d = .other v)
    (noItem : ¬IsItem h v) (rowless : rowOf? h v = none) : Recognised h space v d := by
  obtain ⟨rfl, rfl⟩ | rfl | rfl := blank
  all_goals exact rowless_recognised (fun _ _ => ⟨nofun, fun spells => absurd spells.isItem noItem⟩) (fun _ => rfl) rowless

/-! Typed items. -/

section
variable {fields : Fields}

theorem typedStep_recognised (found : h.object a = .record .stepRef fields) :
    Recognised h space (.ref a) (.step (.ref a) (ofMember h (fields.member "id")) (ofMember h (fields.member "input"))
      (ofMember h (fields.member "condition"))) := by
  refine rowless_recognised (fun inLoop i => ?_) (fun _ => rfl) (by simp only [rowOf?, found])
  simp only [item_step, bind_ok_iff, at_ok_iff, stepId_ofMember, gate_ofMember, value_ofMember]
  constructor
  · rintro ⟨id, ⟨named, present⟩, gate, gated, same⟩
    cases same
    exact .typedStep found named present gated
  · intro spells
    cases spells with
    | typedStep same named present gated =>
      cases found.symm.trans same
      exact ⟨_, ⟨named, present⟩, _, gated, rfl⟩
    | step other | block other | loop other | marker other => cases found.symm.trans other
    | typedBlock other | typedLoop other | typedMarker other => cases found.symm.trans other

theorem typedBlock_recognised (found : h.object a = .record .subflowBlock fields) {steps : Draft}
    (inside : Recognised h space (fields.member "steps") steps) :
    Recognised h space (.ref a) (.block (.ref a) steps (ofMember h (fields.member "condition"))) := by
  refine rowless_recognised (fun inLoop i => ?_) (fun _ => rfl) (by simp only [rowOf?, found])
  simp only [item_block, bind_ok_iff, at_ok_iff, gate_ofMember, inside.2]
  constructor
  · rintro ⟨gate, gated, items, spelt, same⟩
    cases same
    exact .typedBlock found spelt gated
  · intro spells
    cases spells with
    | typedBlock same spelt gated =>
      cases found.symm.trans same
      exact ⟨_, gated, _, spelt, rfl⟩
    | step other | block other | loop other | marker other => cases found.symm.trans other
    | typedStep other | typedLoop other | typedMarker other => cases found.symm.trans other

theorem typedLoop_recognised (found : h.object a = .record .loopBlock fields) {steps : Draft}
    (inside : Recognised h space (fields.member "steps") steps) :
    Recognised h space (.ref a)
      (.loop (.ref a) (ofMember h (fields.member "while_")) steps (ofMember h (fields.member "condition"))) := by
  refine rowless_recognised (fun inLoop i => ?_) (fun _ => rfl) (by simp only [rowOf?, found])
  simp only [item_loop, bind_ok_iff, at_ok_iff, gate_ofMember, condition_ofMember, inside.2]
  constructor
  · rintro ⟨test, tests, gate, gated, items, spelt, same⟩
    cases same
    exact .typedLoop found tests spelt gated
  · intro spells
    cases spells with
    | typedLoop same tests spelt gated =>
      cases found.symm.trans same
      exact ⟨_, tests, _, gated, _, spelt, rfl⟩
    | step other | block other | loop other | marker other => cases found.symm.trans other
    | typedStep other | typedBlock other | typedMarker other => cases found.symm.trans other

theorem typedMarker_recognised (found : h.object a = .record .controlMarker fields) :
    Recognised h space (.ref a)
      (.marker (.ref a) (ofMember h (fields.member "kind")) (ofMember h (fields.member "condition"))) := by
  refine rowless_recognised (fun inLoop i => ?_) (fun _ => rfl) (by simp only [rowOf?, found])
  simp only [item_marker, bind_ok_iff, signal_ofMember, markerItem_ok, condition_ofMember]
  constructor
  · rintro ⟨signal, named, rfl, test, tests, rfl⟩
    exact .typedMarker found named tests
  · intro spells
    cases spells with
    | typedMarker same named tests =>
      cases found.symm.trans same
      exact ⟨_, named, rfl, _, tests, rfl⟩
    | step other | block other | loop other | marker other => cases found.symm.trans other
    | typedStep other | typedBlock other | typedLoop other => cases found.symm.trans other

end

theorem table_recognised (found : h.object a = .dict entries) (read : List.Forall₂ (Drafted h depth) entries.toList members)
    (inside : ∀ w d, ofValue? h depth w = some d → Recognised h space w d) :
    Recognised h space (.ref a) (.table (.ref a) members) := by
  refine rowless_recognised (fun inLoop i => ?_) (fun _ => rfl) (by simp only [rowOf?, found])
  rw [item_table]
  apply tableItem_ok read found
  intro w row items
  obtain ⟨missing, -⟩ | ⟨_, d, same, there, drafted⟩ := member?_steps read
  · cases missing.symm.trans row
  · cases same.symm.trans row
    rw [memberRows_eq there, member?_drafted read (by decide), Option.isSome_map]
    exact (inside _ d drafted).2 _ _

theorem row_recognised {values : List Value} {drafts : List Draft} (opened : rowOf? h v = some values)
    (each : List.Forall₂ (Recognised h space) values drafts) : Recognised h space v (.row v drafts) := by
  refine ⟨fun _ _ => ⟨nofun, fun spells => absurd spells.isItem (not_isItem_of_row opened)⟩, fun inLoop items => ?_⟩
  refine (items_ok each 0).trans ⟨.of_opened opened, fun spelt => ?_⟩
  obtain ⟨_, same, spelt⟩ := spelt.opened
  cases opened.symm.trans same
  exact spelt

/-- What is read from a value passes, as an item or as a row, exactly if the value spells it. -/
theorem recognised {d : Draft} (read : ofValue? h depth v = some d) : Recognised h space v d := by
  induction depth generalizing v d with
  | zero => cases read
  | succ depth ih =>
    cases Read.of_ofValue? read with
    | text => exact text_recognised _
    | row opened each => exact row_recognised opened (each.imp (fun _ _ => ih))
    | table found each => exact table_recognised found each (fun _ _ => ih)
    | step found => exact typedStep_recognised found
    | block found inside => exact typedBlock_recognised found (ih inside)
    | loop found inside => exact typedLoop_recognised found (ih inside)
    | marker found => exact typedMarker_recognised found
    | plain blank noItem rowless => exact plain_recognised blank noItem rowless

/-! How deep a value has to be read. -/

theorem mapM_isSome {f : α → Option β} {values : List α} : (values.mapM f).isSome ↔ ∀ a ∈ values, (f a).isSome := by
  induction values with
  | nil => exact ⟨fun _ => List.forall_mem_nil _, fun _ => rfl⟩
  | cons a rest ih =>
    rw [List.forall_mem_cons, ← ih, List.mapM_cons]
    cases f a with
    | none => simp
    | some b => cases rest.mapM f <;> simp

theorem bind_pure_isSome {c : Option α} (k : α → β) : (c >>= fun a => pure (k a)).isSome = c.isSome := by
  cases c <;> rfl

/-- A value is read if its parts are, one level less deep. -/
theorem readable_succ {h : Heap} {depth : Nat} {v : Value} :
    (ofValue? h (depth + 1) v).isSome ↔ ∀ w ∈ parts h v, (ofValue? h depth w).isSome := by
  cases v with
  | tuple values => rw [parts, ← mapM_isSome, ofValue?, bind_pure_isSome]
  | ref a =>
    simp only [ofValue?, parts]
    cases h.object a with
    | list values => rw [← mapM_isSome, bind_pure_isSome]
    | dict entries =>
      dsimp only
      rw [bind_pure_isSome, mapM_isSome, List.forall_mem_map]
      simp only [List.mem_filter, and_imp]
      refine forall₂_congr (fun entry _ => ?_)
      cases entry.1.sameKey (.str "steps") with
      | false => simp
      | true =>
        rw [if_pos rfl, bind_pure_isSome]
        simp
    | record kind fields =>
      cases kind with
      | subflowBlock | loopBlock =>
        dsimp only
        rw [bind_pure_isSome]
        exact (List.forall_mem_singleton (p := fun w => (ofValue? h depth w).isSome)).symm
      | _ => simp
    | _ => simp
  | _ => simp [ofValue?, parts]

theorem readable_mono {h : Heap} {depth deeper : Nat} (further : depth ≤ deeper) {v : Value}
    (read : (ofValue? h depth v).isSome) : (ofValue? h deeper v).isSome := by
  induction depth generalizing deeper v with
  | zero => cases read
  | succ depth ih =>
    obtain ⟨deeper, rfl⟩ := Nat.exists_eq_add_of_lt further
    rw [readable_succ] at read ⊢
    exact fun w part => ih (Nat.le_add_right _ _) (read w part)

theorem readable_all {h : Heap} {values : List Value} (each : ∀ v ∈ values, ∃ depth, (ofValue? h depth v).isSome) :
    ∃ depth, ∀ v ∈ values, (ofValue? h depth v).isSome := by
  induction values with
  | nil => exact ⟨0, List.forall_mem_nil _⟩
  | cons v rest ih =>
    obtain ⟨⟨depth, first⟩, others⟩ := List.forall_mem_cons.mp each
    obtain ⟨deeper, later⟩ := ih others
    refine ⟨max depth deeper, List.forall_mem_cons.mpr ⟨readable_mono (Nat.le_max_left _ _) first, fun w among => ?_⟩⟩
    exact readable_mono (Nat.le_max_right _ _) (later w among)

/-- A value that comes to an end can be read at some depth, and no other one. -/
theorem grounded_iff {h : Heap} {v : Value} : Grounded h v ↔ ∃ depth, (ofValue? h depth v).isSome := by
  constructor
  · intro finite
    induction finite with
    | intro v _ ih =>
      obtain ⟨depth, inside⟩ := readable_all ih
      exact ⟨depth + 1, readable_succ.mpr inside⟩
  · rintro ⟨depth, read⟩
    induction depth generalizing v with
    | zero => cases read
    | succ depth ih => exact .intro v (fun w part => ih (readable_succ.mp read w part))

end Draft

theorem resolveStepId_eq (space : Option String) : resolveStepId space = Grammar.fullId space := by
  funext id
  cases space with
  | none => simp [resolveStepId, Grammar.fullId]
  | some name => simp [resolveStepId, Grammar.fullId, String.contains_char_eq]

/-- Where a prefix is given: a text, or nothing. -/
def prefixValue : Option String → Value
  | none => .nothing
  | some name => .str name

theorem spaceOf_prefix (space : Option String) (w : World) :
    ∃ named, spaceOf (prefixValue space) w = .ok named w ∧ resolveStepId named = resolveStepId space := by
  cases space with
  | none => exact ⟨none, rfl, rfl⟩
  | some name =>
    by_cases empty : name = ""
    · subst empty
      exact ⟨none, rfl, funext fun id => rfl⟩
    · refine ⟨some name, ?_, rfl⟩
      have holds : Script.Value.truth w.heap (.str name) = true := by simp [Script.Value.truth, empty]
      change spaceOf (.str name) w = _
      simp only [spaceOf, Bind.bind, EStateM.bind, Script.get_result, if_pos holds]
      rfl

open Grammar in
/-- A check gives a schema exactly if this is what is spelt, and all of it is read. -/
theorem normalise_ok_iff (id : Value) (space : Option String) {w w' : World} {v : Value} {items : Schema} :
    normalise id v (prefixValue space) w = .ok items w' ↔
      w' = w ∧ SpellsRow w.heap (fullId space) false v items ∧ (Draft.ofValue? w.heap Script.depthLimit v).isSome := by
  rw [← resolveStepId_eq]
  obtain ⟨named, spaced, resolves⟩ := spaceOf_prefix space w
  rw [← resolves]
  simp only [normalise, Bind.bind, EStateM.bind, spaced, Script.get_result]
  cases read : Draft.ofValue? w.heap Script.depthLimit v with
  | none =>
    constructor
    · exact nofun
    · rintro ⟨-, -, impossible⟩
      cases impossible
  | some d =>
    rw [← (Draft.recognised read).2 false items]
    change _ ↔ w' = w ∧ d.schema named = .ok items ∧ _
    dsimp only
    cases d.schema named with
    | ok found =>
      constructor
      · rintro ⟨⟩
        exact ⟨rfl, rfl, rfl⟩
      · rintro ⟨rfl, ⟨⟩, -⟩
        rfl
    | error defect =>
      constructor
      · intro passed
        obtain ⟨_, _, -, impossible⟩ := Engine.Work.bind_ok passed
        cases impossible
      · rintro ⟨-, impossible, -⟩
        cases impossible

open Grammar in
/-- What passes is exactly what spells a schema, if it is read deep enough. A run gives up on values that lie deeper than it
may go, and otherwise gives the schema that is spelt. -/
theorem normalise_iff_spells (id : Value) (space : Option String) {w : World} {v : Value} (grounded : Grounded w.heap v) :
    (∃ depth, ∀ deeper ≥ depth, ∃ d, Draft.ofValue? w.heap deeper v = some d ∧
        ∀ items, d.schema space = .ok items ↔ SpellsRow w.heap (fullId space) false v items) ∧
      ∀ items w', normalise id v (prefixValue space) w = .ok items w' ↔
        w' = w ∧ SpellsRow w.heap (fullId space) false v items ∧
          (Draft.ofValue? w.heap Script.depthLimit v).isSome := by
  constructor
  · rw [← resolveStepId_eq]
    obtain ⟨depth, read⟩ := Draft.grounded_iff.mp grounded
    refine ⟨depth, fun deeper further => ?_⟩
    obtain ⟨d, read⟩ := Option.isSome_iff_exists.mp (Draft.readable_mono further read)
    exact ⟨d, read, (Draft.recognised read).2 false⟩
  · exact fun items w' => normalise_ok_iff id space

/-- A world that holds a written schema: a step, and a loop over a marker and a step of another namespace. -/
def World.drafting : World where
  heap :=
    { objects := #[.list #[.str "a", .ref 1],
        .dict #[(.str "steps", .tuple [.ref 2, .str "x/b"]), (.str "while", .str "go")],
        .dict #[(.str "break", .str "done")]] }

open Grammar in
theorem drafted_schema_normalised : normalise (.str "s") (.ref 0) (.str "n") .drafting =
    .ok [.step "n/a" .nothing none,
      .loop (.source "go") [.marker .breakLoop (.source "done"), .step "x/b" .nothing none] none] .drafting := by
  have grounded : Grounded World.drafting.heap (.ref 0) := Draft.grounded_iff.mpr ⟨6, rfl⟩
  apply ((normalise_iff_spells (.str "s") (some "n") grounded).2 _ _).mpr
  have near : fullId (some "n") "a" = "n/a" := by decide
  have far : fullId (some "n") "x/b" = "x/b" := by decide
  rw [← near, ← far]
  generalize fullId (some "n") = resolve
  have first : World.drafting.heap.object 2 = .dict #[(.str "break", .str "done")] := rfl
  have second : World.drafting.heap.object 1 =
      .dict #[(.str "steps", .tuple [.ref 2, .str "x/b"]), (.str "while", .str "go")] := rfl
  have whole : World.drafting.heap.object 0 = .list #[.str "a", .ref 1] := rfl
  have marker : Spells World.drafting.heap resolve true (.ref 2) (.marker .breakLoop (.source "done")) :=
    .marker first (by simp [Script.Entries.Within, Signal.name]) rfl
      (.source (c := 'd') (by decide) (by decide))
  have inside : SpellsRow World.drafting.heap resolve true (.tuple [.ref 2, .str "x/b"])
      [.marker .breakLoop (.source "done"), .step (resolve "x/b") .nothing none] :=
    .tuple (.cons marker (.cons (.name (by decide)) .nil))
  have looped : Spells World.drafting.heap resolve false (.ref 1)
      (.loop (.source "go") [.marker .breakLoop (.source "done"), .step (resolve "x/b") .nothing none] none) :=
    .loop second (by simp [Script.Entries.Within]) rfl (.source (c := 'g') (by decide) (by decide)) rfl inside .free
  exact ⟨rfl, .list whole (.cons (.name (by decide)) (.cons looped .nil)), rfl⟩

end Workflow
