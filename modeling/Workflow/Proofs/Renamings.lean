import Workflow.Proofs.Contexts
import Workflow.Proofs.Heaps
import Workflow.Proofs.Written

/-! Objects at other addresses. A renaming takes some objects of a heap to those of another one that are made of the same
values and stand to one another as they do. Apart from the texts of functions and iterators, which show an address,
nothing that is read from a value depends on where its objects lie. -/

namespace Workflow.Script
open Fallible

mutual

/-- A value with other addresses. -/
def Value.rename (f : Addr → Addr) : Value → Value
  | .tuple items => .tuple (Value.renameAll f items)
  | .slice lower upper step => .slice (lower.rename f) (upper.rename f) (step.rename f)
  | .bound m receiver => .bound m (receiver.rename f)
  | .ref a => .ref (f a)
  | v => v

def Value.renameAll (f : Addr → Addr) : List Value → List Value
  | [] => []
  | v :: rest => v.rename f :: Value.renameAll f rest

end

def Entry.rename (f : Addr → Addr) (entry : Value × Value) : Value × Value := (entry.1.rename f, entry.2.rename f)

def Field.rename (f : Addr → Addr) (field : String × Value) : String × Value := (field.1, field.2.rename f)

def Function.rename (f : Addr → Addr) (g : Function) : Function :=
  { g with defaults := g.defaults.map (Value.rename f), keywordDefaults := g.keywordDefaults.map (Option.map (Value.rename f))
           scope := f g.scope }

def Frame.rename (f : Addr → Addr) (g : Frame) : Frame :=
  { g with values := g.values.map (Field.rename f), builtins := g.builtins.map (Field.rename f), outer := g.outer.map f }

def Iterator.rename (f : Addr → Addr) : Iterator → Iterator
  | .list source position => .list (f source) position
  | .tuple rest => .tuple (rest.map (Value.rename f))
  | .text ascii rest => .text ascii rest
  | .entries part source size position => .entries part (f source) size position
  | .set rest source size => .set (rest.map (Value.rename f)) (f source) size
  | .range start step left => .range start step left
  | .enumerate inner count => .enumerate (f inner) count
  | .zip inners => .zip (inners.map f)
  | .generator g => .generator { g with frame := f g.frame, cursors := g.cursors.map f }

/-- An object with other addresses in it. -/
def Object.rename (f : Addr → Addr) : Object → Object
  | .list items => .list (items.map (Value.rename f))
  | .dict entries => .dict (entries.map (Entry.rename f))
  | .set items => .set (items.map (Value.rename f))
  | .record kind fields => .record kind (fields.map (Field.rename f))
  | .error c args fields => .error c (args.map (Value.rename f)) (fields.map (Field.rename f))
  | .function g => .function (g.rename f)
  | .frame g => .frame (g.rename f)
  | .supplied g => .supplied g
  | .awaitable g args => .awaitable g (args.map (Value.rename f))
  | .iterator it => .iterator (it.rename f)
  | .view part source => .view part (f source)

theorem Value.renameAll_eq_map (f : Addr → Addr) (items : List Value) : Value.renameAll f items = items.map (Value.rename f) := by
  induction items with
  | nil => rfl
  | cons v rest ih => simp only [Value.renameAll, ih, List.map_cons]

/-- New addresses for some objects, different ones for different objects. -/
structure Renaming where
  map : Addr → Addr
  domain : Addr → Prop
  injective : ∀ a b, domain a → domain b → map a = map b → a = b

namespace Renaming
variable {f g : Renaming} {v w : Value}

/-- All addresses in a value are renamed. -/
def Covers (f : Renaming) (v : Value) : Prop := ∀ a ∈ v.addresses, f.domain a

def CoversAll (f : Renaming) (values : List Value) : Prop := ∀ v ∈ values, f.Covers v

/-- A value becomes another one. -/
def Sends (f : Renaming) (v v' : Value) : Prop := f.Covers v ∧ v' = v.rename f.map

/-- A renaming that goes on with another one. -/
def Within (f g : Renaming) : Prop := ∀ a, f.domain a → g.domain a ∧ g.map a = f.map a

theorem Within.refl (f : Renaming) : f.Within f := fun _ member => ⟨member, rfl⟩

theorem Within.trans {k : Renaming} (first : f.Within g) (second : g.Within k) : f.Within k := by
  intro a member
  obtain ⟨inside, same⟩ := first a member
  obtain ⟨inside', same'⟩ := second a inside
  exact ⟨inside', same'.trans same⟩

theorem Covers.mono (covers : f.Covers v) (within : f.Within g) : g.Covers v :=
  fun a member => (within a (covers a member)).1

theorem CoversAll.tuple {items : List Value} (covers : f.CoversAll items) : f.Covers (.tuple items) := by
  intro a named
  obtain ⟨v, member, named⟩ := Value.mem_addressesOf.mp (show a ∈ Value.addressesOf items from named)
  exact covers v member a named

theorem Covers.items {items : List Value} (covers : f.Covers (.tuple items)) : f.CoversAll items :=
  fun v member a named => covers a (Value.mem_addressesOf.mpr ⟨v, member, named⟩)

theorem covers_ref {a : Addr} : f.Covers (.ref a) ↔ f.domain a := by simp [Covers, Value.addresses]

end Renaming

/-! Renaming as told by the addresses that occur. -/

mutual

theorem Value.rename_congr {f g : Addr → Addr} {v : Value} (same : ∀ a ∈ v.addresses, g a = f a) : v.rename g = v.rename f := by
  cases v with
  | tuple items => simp only [Value.rename, Value.renameAll_congr same]
  | slice lower upper step =>
    have first := Value.rename_congr (v := lower) (fun a member => same a (by simp [Value.addresses, member]))
    have second := Value.rename_congr (v := upper) (fun a member => same a (by simp [Value.addresses, member]))
    have third := Value.rename_congr (v := step) (fun a member => same a (by simp [Value.addresses, member]))
    simp only [Value.rename, first, second, third]
  | bound m receiver => simp only [Value.rename, Value.rename_congr (v := receiver) same]
  | ref a => simp only [Value.rename, same a (List.mem_singleton.mpr rfl)]
  | _ => rfl

theorem Value.renameAll_congr {f g : Addr → Addr} {items : List Value} (same : ∀ a ∈ Value.addressesOf items, g a = f a) :
    Value.renameAll g items = Value.renameAll f items := by
  cases items with
  | nil => rfl
  | cons v rest =>
    have first := Value.rename_congr (v := v) (fun a member => same a (List.mem_append_left _ member))
    have others := Value.renameAll_congr (fun a (member : a ∈ Value.addressesOf rest) => same a (List.mem_append_right _ member))
    simp only [Value.renameAll, first, others]

end

theorem Renaming.Within.rename {f g : Renaming} (within : f.Within g) {v : Value} (covers : f.Covers v) :
    v.rename g.map = v.rename f.map :=
  Value.rename_congr (fun a member => (within a (covers a member)).2)

mutual

theorem Value.rename_id (v : Value) : v.rename id = v := by
  cases v with
  | tuple items => simp only [Value.rename, Value.renameAll_id]
  | slice lower upper step => simp only [Value.rename, Value.rename_id]
  | bound m receiver => simp only [Value.rename, Value.rename_id]
  | _ => rfl

theorem Value.renameAll_id (items : List Value) : Value.renameAll id items = items := by
  cases items with
  | nil => rfl
  | cons v rest => simp only [Value.renameAll, Value.rename_id v, Value.renameAll_id rest]

end

/-- A value without addresses. -/
def Value.isBare (v : Value) : Prop := v.addresses = []

theorem Value.isBare.covers {v : Value} (bare : v.isBare) (f : Renaming) : f.Covers v := by
  intro a member
  rw [bare] at member
  cases member

theorem Value.isBare.rename {v : Value} (bare : v.isBare) (f : Addr → Addr) : v.rename f = v := by
  have same : v.rename f = v.rename id := Value.rename_congr (fun a member => by rw [bare] at member; cases member)
  rw [same, Value.rename_id]

/-- What is found in one place is found in another one, renamed. -/
def Renaming.Takes (f : Renaming) (found found' : Option Value) : Prop :=
  found' = found.map (Value.rename f.map) ∧ ∀ v, found = some v → f.Covers v

namespace Renaming.Takes
variable {f : Renaming}

theorem none : f.Takes none none := ⟨rfl, fun _ found => by cases found⟩

theorem some {v : Value} (covers : f.Covers v) : f.Takes (some v) (some (v.rename f.map)) := by
  refine ⟨rfl, fun u same => ?_⟩
  cases same
  exact covers

theorem bare {found : Option Value} (bare : ∀ v, found = Option.some v → v.isBare) : f.Takes found found := by
  cases found with
  | none => exact none
  | some v =>
    have same := (bare v rfl).rename f.map
    exact ⟨by rw [Option.map_some, same], fun u here => (bare u here).covers f⟩

theorem or {x x' y y' : Option Value} (first : f.Takes x x') (second : f.Takes y y') : f.Takes (x.or y) (x'.or y') := by
  obtain ⟨rfl, covers⟩ := first
  obtain ⟨rfl, covers'⟩ := second
  cases x with
  | none => exact ⟨rfl, covers'⟩
  | some v => exact ⟨rfl, covers⟩

end Renaming.Takes

theorem Renaming.Sends.mono {f g : Renaming} {v v' : Value} (sends : f.Sends v v') (within : f.Within g) : g.Sends v v' := by
  obtain ⟨covers, rfl⟩ := sends
  exact ⟨covers.mono within, (within.rename covers).symm⟩

theorem Value.isBare.sends {v : Value} (bare : v.isBare) (f : Renaming) : f.Sends v v := ⟨bare.covers f, (bare.rename f.map).symm⟩

/-! Keys. -/

section
variable {f : Renaming} {v w : Value}

theorem Value.int?_rename (f : Addr → Addr) (v : Value) : (v.rename f).int? = v.int? := by cases v <;> rfl

theorem Value.numbersEqual?_rename (f : Addr → Addr) (v w : Value) :
    (v.rename f).numbersEqual? (w.rename f) = v.numbersEqual? w := by
  cases v <;> cases w <;> rfl

mutual

theorem Value.same_rename {v w : Value} (left : f.Covers v) (right : f.Covers w) :
    (v.rename f.map).same (w.rename f.map) = v.same w := by
  cases v with
  | ref a =>
    cases w with
    | ref b =>
      have inside := Renaming.covers_ref.mp left
      have inside' := Renaming.covers_ref.mp right
      by_cases same : a = b
      · simp [Value.rename, Value.same, same]
      · have apart : f.map a ≠ f.map b := fun equal => same (f.injective a b inside inside' equal)
        simp only [Value.rename, Value.same, beq_eq_false_iff_ne.mpr apart, beq_eq_false_iff_ne.mpr same]
    | _ => rfl
  | tuple vs =>
    cases w with
    | tuple ws => simp only [Value.rename, Value.same, Value.allSame_rename left right]
    | _ => rfl
  | slice a b c =>
    cases w with
    | slice d e k =>
      have first := Value.same_rename (v := a) (w := d) (fun x member => left x (by simp [Value.addresses, member]))
        (fun x member => right x (by simp [Value.addresses, member]))
      have second := Value.same_rename (v := b) (w := e) (fun x member => left x (by simp [Value.addresses, member]))
        (fun x member => right x (by simp [Value.addresses, member]))
      have third := Value.same_rename (v := c) (w := k) (fun x member => left x (by simp [Value.addresses, member]))
        (fun x member => right x (by simp [Value.addresses, member]))
      simp only [Value.rename, Value.same, first, second, third]
    | _ => rfl
  | bound m receiver =>
    cases w with
    | bound n other => simp only [Value.rename, Value.same, Value.same_rename (v := receiver) (w := other) left right]
    | _ => rfl
  | _ => cases w <;> rfl

theorem Value.allSame_rename {vs ws : List Value} (left : f.Covers (.tuple vs)) (right : f.Covers (.tuple ws)) :
    Value.allSame (Value.renameAll f.map vs) (Value.renameAll f.map ws) = Value.allSame vs ws := by
  cases vs with
  | nil => cases ws <;> rfl
  | cons v vs =>
    cases ws with
    | nil => rfl
    | cons w ws =>
      have first := Value.same_rename (v := v) (w := w) (left.items v (by simp)) (right.items w (by simp))
      have others : Value.allSame (Value.renameAll f.map vs) (Value.renameAll f.map ws) = Value.allSame vs ws :=
        Value.allSame_rename
        (Renaming.CoversAll.tuple (fun u member => left.items u (by simp [member])))
        (Renaming.CoversAll.tuple (fun u member => right.items u (by simp [member])))
      simp only [Value.renameAll, Value.allSame, first, others]

end

mutual

theorem Value.sameKey_rename {v w : Value} (left : f.Covers v) (right : f.Covers w) :
    (v.rename f.map).sameKey (w.rename f.map) = v.sameKey w := by
  have plain : ∀ u u' : Value, f.Covers u → f.Covers u' →
      (((u.rename f.map).numbersEqual? (u'.rename f.map)).getD false || (u.rename f.map).same (u'.rename f.map)) =
        ((u.numbersEqual? u').getD false || u.same u') := by
    intro u u' left right
    rw [Value.numbersEqual?_rename, Value.same_rename left right]
  cases v with
  | tuple vs =>
    cases w with
    | tuple ws => simp only [Value.rename, Value.sameKey, Value.sameKeys_rename left right]
    | _ => exact plain _ _ left right
  | range a b c =>
    cases w with
    | range => rfl
    | _ => exact plain _ _ left right
  | _ => exact plain _ _ left right

theorem Value.sameKeys_rename {vs ws : List Value} (left : f.Covers (.tuple vs)) (right : f.Covers (.tuple ws)) :
    Value.sameKeys (Value.renameAll f.map vs) (Value.renameAll f.map ws) = Value.sameKeys vs ws := by
  cases vs with
  | nil => cases ws <;> rfl
  | cons v vs =>
    cases ws with
    | nil => rfl
    | cons w ws =>
      have first := Value.sameKey_rename (v := v) (w := w) (left.items v (by simp)) (right.items w (by simp))
      have others : Value.sameKeys (Value.renameAll f.map vs) (Value.renameAll f.map ws) = Value.sameKeys vs ws :=
        Value.sameKeys_rename
        (Renaming.CoversAll.tuple (fun u member => left.items u (by simp [member])))
        (Renaming.CoversAll.tuple (fun u member => right.items u (by simp [member])))
      simp only [Value.renameAll, Value.sameKeys, first, others]

end

end

/-! Tables. -/

theorem isEmpty_map (g : α → β) (items : Array α) : (items.map g).isEmpty = items.isEmpty := by
  simp only [Array.isEmpty, Array.size_map]

section
variable {p q : α → Bool}

theorem find?_congr {items : Array α} (same : ∀ a ∈ items, p a = q a) : items.find? p = items.find? q := by
  obtain ⟨items⟩ := items
  simp only [List.find?_toArray]
  induction items with
  | nil => rfl
  | cons a rest ih =>
    have first := same a (by simp)
    have others := ih (fun b member => same b (by simp at member ⊢; exact .inr member))
    simp only [List.find?_cons, first, others]

theorem any_congr {items : Array α} (same : ∀ a ∈ items, p a = q a) : items.any p = items.any q := by
  rw [← Array.any_toList, ← Array.any_toList, Bool.eq_iff_iff, List.any_eq_true, List.any_eq_true]
  constructor <;> rintro ⟨a, member, holds⟩ <;> refine ⟨a, member, ?_⟩
  · rwa [← same a (Array.mem_toList_iff.mp member)]
  · rwa [same a (Array.mem_toList_iff.mp member)]

theorem findIdx?_congr {items : Array α} (same : ∀ a ∈ items, p a = q a) : items.findIdx? p = items.findIdx? q := by
  obtain ⟨items⟩ := items
  simp only [List.findIdx?_toArray]
  induction items with
  | nil => rfl
  | cons a rest ih =>
    have first := same a (by simp)
    have others := ih (fun b member => same b (by simp at member ⊢; exact .inr member))
    simp only [List.findIdx?_cons, first, others]

end

/-- All keys and values of some entries are renamed. -/
def Entries.CoveredBy (entries : Entries) (f : Renaming) : Prop := ∀ entry ∈ entries, f.Covers entry.1 ∧ f.Covers entry.2

def Entries.rename (entries : Entries) (f : Addr → Addr) : Entries := entries.map (Entry.rename f)

namespace Entries
variable {f : Renaming} {entries more : Entries} {key v : Value}

theorem sameKey_rename (covered : entries.CoveredBy f) (covers : f.Covers key) :
    ∀ entry ∈ entries, (Entry.rename f.map entry).1.sameKey (key.rename f.map) = entry.1.sameKey key :=
  fun entry member => Value.sameKey_rename (covered entry member).1 covers

theorem position?_rename (covered : entries.CoveredBy f) (covers : f.Covers key) :
    position? (rename entries f.map) (key.rename f.map) = position? entries key := by
  rw [position?, rename, Array.findIdx?_map]
  exact findIdx?_congr (sameKey_rename covered covers)

theorem get?_rename (covered : entries.CoveredBy f) (covers : f.Covers key) :
    get? (rename entries f.map) (key.rename f.map) = (get? entries key).map (Value.rename f.map) := by
  have same : entries.find? ((fun entry => entry.1.sameKey (key.rename f.map)) ∘ Entry.rename f.map) =
    entries.find? (fun entry => entry.1.sameKey key) := find?_congr (sameKey_rename covered covers)
  rw [get?, rename, Array.find?_map, same, get?, Option.map_map, Option.map_map]
  rfl

theorem named?_rename (covered : entries.CoveredBy f) (name : String) :
    named? (rename entries f.map) name = (named? entries name).map (Value.rename f.map) :=
  get?_rename covered (Value.isBare.covers (v := .str name) rfl f)

theorem get?_covered (covered : entries.CoveredBy f) (found : get? entries key = some v) : f.Covers v := by
  obtain ⟨entry, there, rfl⟩ := Option.map_eq_some_iff.mp found
  exact (covered entry (Array.mem_of_find?_eq_some there)).2

theorem insert_rename (covered : entries.CoveredBy f) (covers : f.Covers key) :
    insert (rename entries f.map) (key.rename f.map) (v.rename f.map) = rename (insert entries key v) f.map := by
  unfold insert
  rw [position?_rename covered covers]
  split
  · next i found =>
    refine Array.ext_getElem? (fun k => ?_)
    simp only [rename, Array.getElem?_modify, Array.getElem?_map]
    split <;> cases entries[k]? <;> rfl
  · simp only [rename, Array.map_push]
    rfl

theorem insert_covered (covered : entries.CoveredBy f) (covers : f.Covers key) (covers' : f.Covers v) :
    (insert entries key v).CoveredBy f := by
  unfold insert
  split
  · intro entry member
    obtain ⟨k, found⟩ := Array.mem_iff_getElem?.mp member
    rw [Array.getElem?_modify] at found
    split at found
    · obtain ⟨entry', there, rfl⟩ := Option.map_eq_some_iff.mp found
      exact ⟨(covered entry' (Array.mem_of_getElem? there)).1, covers'⟩
    · exact covered entry (Array.mem_of_getElem? found)
  · intro entry member
    obtain member | rfl := Array.mem_push.mp member
    · exact covered entry member
    · exact ⟨covers, covers'⟩

theorem insertAll_renamed (covered : entries.CoveredBy f) (covered' : more.CoveredBy f) :
    insertAll (rename entries f.map) (rename more f.map) = rename (insertAll entries more) f.map ∧
      (insertAll entries more).CoveredBy f := by
  unfold insertAll
  obtain ⟨more⟩ := more
  simp only [rename, List.map_toArray, List.foldl_toArray]
  induction more generalizing entries with
  | nil => exact ⟨rfl, covered⟩
  | cons entry rest ih =>
    obtain ⟨key, value⟩ := covered' entry (by simp)
    have inserted := insert_rename covered key (v := entry.2)
    have next := ih (insert_covered covered key value) (fun e member => covered' e (by simp at member ⊢; exact .inr member))
    rw [List.map_cons, List.foldl_cons, List.foldl_cons, Entry.rename, ← rename, inserted]
    exact next

theorem CoveredBy.mono {g : Renaming} (covered : entries.CoveredBy f) (within : f.Within g) : entries.CoveredBy g :=
  fun entry member => ⟨(covered entry member).1.mono within, (covered entry member).2.mono within⟩

theorem CoveredBy.rename {g : Renaming} (covered : entries.CoveredBy f) (within : f.Within g) :
    Entries.rename entries g.map = Entries.rename entries f.map := by
  refine Array.map_congr_left (fun entry member => ?_)
  obtain ⟨key, value⟩ := covered entry member
  simp only [Entry.rename, within.rename key, within.rename value]

end Entries

/-! Heaps. -/

def Renaming.CoversObject (f : Renaming) (o : Object) : Prop := ∀ a ∈ o.addresses, f.domain a

/-- The renamed objects of a heap are in another one, at their new addresses. No error is being handled in either. -/
structure Heap.Renamed (f : Renaming) (h h' : Heap) : Prop where
  object : ∀ a, f.domain a → ∃ o, h.objects[a]? = some o ∧ f.CoversObject o ∧ h'.objects[f.map a]? = some (o.rename f.map)
  idle : h.handling = [] ∧ h'.handling = []

theorem Object.coversAll {f : Renaming} {values : List Value} (covers : ∀ a ∈ Value.addressesOf values, f.domain a) :
    f.CoversAll values :=
  fun v member a named => covers a (Value.mem_addressesOf.mpr ⟨v, member, named⟩)

theorem Renaming.CoversAll.addresses {f : Renaming} {values : List Value} (covers : f.CoversAll values) :
    ∀ a ∈ Value.addressesOf values, f.domain a := by
  intro a named
  obtain ⟨v, member, named⟩ := Value.mem_addressesOf.mp named
  exact covers v member a named

theorem Entries.coveredBy_iff {entries : Entries} {f : Renaming} :
    f.CoversObject (.dict entries) ↔ entries.CoveredBy f := by
  constructor
  · intro covers entry member
    have all := Object.coversAll covers
    obtain ⟨key, value⟩ := mem_entryValues (Array.mem_toList_iff.mpr member)
    exact ⟨all _ key, all _ value⟩
  · intro covered
    refine Renaming.CoversAll.addresses (fun v member => ?_)
    obtain ⟨entry, there, same⟩ := List.mem_flatMap.mp member
    obtain ⟨key, value⟩ := covered entry (Array.mem_toList_iff.mp there)
    simp only [List.mem_cons, List.not_mem_nil, or_false] at same
    obtain rfl | rfl := same
    · exact key
    · exact value

theorem Renaming.coversAll_iff {f : Renaming} {items : Array Value} : f.CoversObject (.list items) ↔ f.CoversAll items.toList :=
  ⟨fun covers => Object.coversAll covers, fun covers => covers.addresses⟩

/-! Sets. -/

theorem Members.insert_rename {f : Renaming} {members : Array Value} {v : Value} (all : f.CoversAll members.toList)
    (covers : f.Covers v) :
    Members.insert (members.map (Value.rename f.map)) (v.rename f.map) = (Members.insert members v).map (Value.rename f.map) := by
  have same : Members.contains (members.map (Value.rename f.map)) (v.rename f.map) = Members.contains members v := by
    unfold Members.contains
    rw [Array.any_map]
    exact any_congr (fun w member => Value.sameKey_rename (all w (Array.mem_toList_iff.mpr member)) covers)
  unfold Members.insert
  rw [same]
  split
  · rfl
  · exact (Array.map_push ..).symm

theorem Members.ofList_renamed {f : Renaming} {values : List Value} (covers : f.CoversAll values) :
    f.CoversObject (.set (Members.ofList values)) ∧
      Members.ofList (values.map (Value.rename f.map)) = (Members.ofList values).map (Value.rename f.map) := by
  have fold {found : Array Value} (all : f.CoversAll found.toList) :
      f.CoversAll (values.foldl Members.insert found).toList ∧
        (values.map (Value.rename f.map)).foldl Members.insert (found.map (Value.rename f.map)) =
          (values.foldl Members.insert found).map (Value.rename f.map) := by
    induction values generalizing found with
    | nil => exact ⟨all, rfl⟩
    | cons v rest ih =>
      have here := covers v List.mem_cons_self
      rw [List.map_cons, List.foldl_cons, List.foldl_cons, Members.insert_rename all here]
      refine ih (fun w member => covers w (List.mem_cons_of_mem v member)) (fun w member => ?_)
      unfold Members.insert at member
      split at member
      · exact all w member
      · obtain member | member := Array.mem_push.mp (Array.mem_toList_iff.mp member)
        · exact all w (Array.mem_toList_iff.mpr member)
        · rw [member]
          exact here
  obtain ⟨all, same⟩ := fold (show f.CoversAll (#[] : Array Value).toList from List.forall_mem_nil _)
  refine ⟨Renaming.coversAll_iff.mpr all, ?_⟩
  rw [Array.map_empty] at same
  exact same

namespace Heap.Renamed
variable {f : Renaming} {h h' : Heap} (renamed : h.Renamed f h')
include renamed

theorem found {a : Addr} (inside : f.domain a) :
    f.CoversObject (h.object a) ∧ h'.object (f.map a) = (h.object a).rename f.map := by
  obtain ⟨o, here, covers, there⟩ := renamed.object a inside
  rw [Heap.object_of_getElem? here, Heap.object_of_getElem? there]
  exact ⟨covers, rfl⟩

variable {v : Value} (covers : f.Covers v)
include covers

theorem classOf : (v.rename f.map).classOf h' = v.classOf h := by
  cases v with
  | ref a =>
    obtain ⟨-, same⟩ := renamed.found (Renaming.covers_ref.mp covers)
    simp only [Value.rename, Value.classOf, same]
    cases h.object a with
    | iterator it =>
      cases it with
      | entries part => cases part <;> rfl
      | _ => rfl
    | _ => rfl
  | _ => rfl

theorem className : (v.rename f.map).className h' = v.className h := by
  rw [Value.className, Value.className, renamed.classOf covers]

theorem typeName : (v.rename f.map).typeName h' = v.typeName h := by
  rw [Value.typeName, Value.typeName, renamed.classOf covers]

theorem entries? : (v.rename f.map).entries? h' = (v.entries? h).map (Entries.rename · f.map) ∧
    ∀ entries, v.entries? h = some entries → entries.CoveredBy f := by
  cases v with
  | ref a =>
    obtain ⟨inside, same⟩ := renamed.found (Renaming.covers_ref.mp covers)
    simp only [Value.rename, Value.entries?, same]
    cases held : h.object a with
    | dict entries =>
      rw [held] at inside
      refine ⟨rfl, fun entries' given => ?_⟩
      cases given
      exact Entries.coveredBy_iff.mp inside
    | _ => exact ⟨rfl, fun _ given => by cases given⟩
  | _ => exact ⟨rfl, fun _ given => by cases given⟩

theorem listItems? : (v.rename f.map).listItems? h' = (v.listItems? h).map (Array.map (Value.rename f.map)) ∧
    ∀ items, v.listItems? h = some items → f.CoversAll items.toList := by
  cases v with
  | ref a =>
    obtain ⟨inside, same⟩ := renamed.found (Renaming.covers_ref.mp covers)
    simp only [Value.rename, Value.listItems?, same]
    cases held : h.object a with
    | list items =>
      rw [held] at inside
      refine ⟨rfl, fun items' given => ?_⟩
      cases given
      exact Renaming.coversAll_iff.mp inside
    | _ => exact ⟨rfl, fun _ given => by cases given⟩
  | _ => exact ⟨rfl, fun _ given => by cases given⟩

theorem truth : (v.rename f.map).truth h' = v.truth h := by
  cases v with
  | tuple items =>
    simp only [Value.rename, Value.renameAll_eq_map, Value.truth, List.isEmpty_map]
  | ref a =>
    obtain ⟨inside, same⟩ := renamed.found (Renaming.covers_ref.mp covers)
    simp only [Value.rename, Value.truth, same]
    cases held : h.object a with
    | view part source =>
      rw [held] at inside
      obtain ⟨-, shown⟩ := renamed.found (inside source (List.mem_singleton.mpr rfl))
      simp only [Object.rename, shown]
      cases h.object source <;> simp [isEmpty_map]
    | list items => simp [Object.rename, isEmpty_map]
    | dict entries => simp [Object.rename, isEmpty_map]
    | set items => simp [Object.rename, isEmpty_map]
    | _ => rfl
  | _ => rfl

end Heap.Renamed

/-! Attributes. -/

theorem Fields.get?_rename (f : Addr → Addr) (fields : Fields) (name : String) :
    Fields.get? (fields.map (Field.rename f)) name = (Fields.get? fields name).map (Value.rename f) := by
  rw [Fields.get?, Array.find?_map, Fields.get?, Option.map_map, Option.map_map]
  rfl

/-- An attribute that a value has of its own. -/
def Value.own? (h : Heap) (v : Value) (name : String) : Option Value :=
  match v with
  | .type c => c.attribute? name
  | .ref a => (h.object a).attribute? name
  | .date d => dateAttribute? d name
  | .moment m => momentAttribute? m name
  | .range start stop step =>
    if name == "start" then some (.int start)
    else if name == "stop" then some (.int stop)
    else if name == "step" then some (.int step)
    else none
  | _ => none

/-- A method of a value, bound to it. -/
def Value.bound? (h : Heap) (v : Value) (name : String) : Option Value :=
  match v with
  | .type _ => none
  | v => do
    let k ← v.methodKind? h
    let m ← Method.ofName? k name
    some (.bound m v)

/-- An attribute that tells what a value is. -/
def Value.special? (h : Heap) (v : Value) (name : String) : Option Value :=
  if name == "__class__" then some (.type (v.classOf h))
  else if name == "__name__" || name == "__qualname__" then (v.calledName? h).map .str
  else none

theorem Value.attribute?_eq (h : Heap) (v : Value) (name : String) :
    v.attribute? h name = (v.own? h name).or ((v.bound? h name).or (v.special? h name)) := rfl

theorem Value.bound?_eq {h : Heap} {v : Value} (other : ∀ c, v ≠ .type c) (name : String) :
    v.bound? h name = (v.methodKind? h).bind (fun k => (Method.ofName? k name).bind (fun m => some (.bound m v))) := by
  cases v with
  | type c => exact absurd rfl (other c)
  | _ => rfl

theorem Class.attribute?_bare {c : Class} {name : String} {v : Value} (found : c.attribute? name = some v) : v.isBare := by
  unfold Class.attribute? at found
  split at found
  · split at found
    · cases found
      rfl
    · cases found
  · obtain ⟨m, -, rfl⟩ := Option.map_eq_some_iff.mp found
    rfl
  · cases found

theorem dateAttribute?_bare {d : Date} {name : String} {v : Value} (found : dateAttribute? d name = some v) : v.isBare := by
  unfold dateAttribute? at found
  repeat (split at found; · cases found; rfl)
  cases found

theorem momentAttribute?_bare {m : Moment} {name : String} {v : Value} (found : momentAttribute? m name = some v) :
    v.isBare := by
  unfold momentAttribute? at found
  repeat (split at found; · cases found; rfl)
  exact dateAttribute?_bare found

namespace Heap.Renamed
variable {f : Renaming} {h h' : Heap} (renamed : h.Renamed f h') {v : Value} (covers : f.Covers v)
include renamed covers

omit renamed covers in
theorem objectAttribute? {o : Object} (inside : f.CoversObject o) (name : String) :
    f.Takes (o.attribute? name) ((o.rename f.map).attribute? name) := by
  cases o with
  | record kind fields =>
    refine ⟨Fields.get?_rename f.map fields name, fun u found => ?_⟩
    exact Object.coversAll inside u (Fields.get?_mem found)
  | error c args fields =>
    have all := Object.coversAll inside
    simp only [Object.rename, Object.attribute?]
    split
    · have shown : Value.tuple (args.map (Value.rename f.map)) = (Value.tuple args).rename f.map := by
        rw [Value.rename, Value.renameAll_eq_map]
      rw [shown]
      exact .some (Renaming.CoversAll.tuple (fun u member => all u (List.mem_append_left _ member)))
    · refine ⟨Fields.get?_rename f.map fields name, fun u found => ?_⟩
      exact all u (List.mem_append_right _ (Fields.get?_mem found))
  | _ => exact .none

theorem own? (name : String) : f.Takes (v.own? h name) ((v.rename f.map).own? h' name) := by
  cases v with
  | ref a =>
    obtain ⟨inside, same⟩ := renamed.found (Renaming.covers_ref.mp covers)
    simp only [Value.rename, Value.own?, same]
    exact objectAttribute? inside name
  | type c => exact .bare (fun u found => Class.attribute?_bare found)
  | date d => exact .bare (fun u found => dateAttribute?_bare found)
  | moment m => exact .bare (fun u found => momentAttribute?_bare found)
  | range start stop step =>
    refine .bare (fun u found => ?_)
    simp only [Value.own?] at found
    repeat (split at found; · cases found; rfl)
    cases found
  | _ => exact .none

theorem bound? (name : String) : f.Takes (v.bound? h name) ((v.rename f.map).bound? h' name) := by
  by_cases type : ∃ c, v = .type c
  · obtain ⟨c, rfl⟩ := type
    exact .none
  have notType : ∀ c, v ≠ .type c := fun c same => type ⟨c, same⟩
  have notType' : ∀ c, v.rename f.map ≠ .type c := by cases v <;> simp_all [Value.rename]
  rw [Value.bound?_eq notType, Value.bound?_eq notType', Value.methodKind?, Value.methodKind?, renamed.classOf covers]
  cases v.classOf h with
  | error => exact .none
  | kind k =>
    cases found : Method.ofName? k name with
    | none => exact ⟨by simp [found], by simp [found]⟩
    | some m => exact ⟨by simp [found, Value.rename], by simpa [found, Renaming.Covers, Value.addresses] using covers⟩

theorem calledName? : (v.rename f.map).calledName? h' = v.calledName? h := by
  cases v with
  | ref a =>
    obtain ⟨-, same⟩ := renamed.found (Renaming.covers_ref.mp covers)
    simp only [Value.rename, Value.calledName?, same]
    cases h.object a <;> rfl
  | _ => rfl

theorem special? (name : String) : f.Takes (v.special? h name) ((v.rename f.map).special? h' name) := by
  rw [Value.special?, Value.special?, renamed.classOf covers, renamed.calledName? covers]
  refine .bare (fun u found => ?_)
  split at found
  · cases found
    rfl
  · split at found
    · obtain ⟨s, -, rfl⟩ := Option.map_eq_some_iff.mp found
      rfl
    · cases found

/-- An attribute of a renamed value is that of the value, renamed. -/
theorem attribute? (name : String) : f.Takes (v.attribute? h name) ((v.rename f.map).attribute? h' name) := by
  rw [Value.attribute?_eq, Value.attribute?_eq]
  exact (renamed.own? covers name).or ((renamed.bound? covers name).or (renamed.special? covers name))

end Heap.Renamed

/-! Data. -/

section
variable {f : Renaming} {h h' : Heap} (renamed : h.Renamed f h')
include renamed

theorem memberName_rename {key : Value} (covers : f.Covers key) : memberName h' (key.rename f.map) = memberName h key := by
  cases key with
  | tuple items => simp only [Value.rename, memberName, Value.className, Value.classOf]
  | slice lower upper step => simp only [Value.rename, memberName, Value.className, Value.classOf]
  | bound m receiver => simp only [Value.rename, memberName, Value.className, Value.classOf]
  | ref a =>
    have same := renamed.className covers
    simp only [Value.rename, memberName] at same ⊢
    rw [same]
  | _ => rfl

omit renamed in
theorem contains_rename {inside : List Addr} (within : ∀ a ∈ inside, f.domain a) {a : Addr} (there : f.domain a) :
    (inside.map f.map).contains (f.map a) = inside.contains a := by
  rw [Bool.eq_iff_iff, List.contains_iff_mem, List.contains_iff_mem, List.mem_map]
  constructor
  · rintro ⟨b, member, same⟩
    exact f.injective b a (within b member) there same ▸ member
  · exact fun member => ⟨a, member, rfl⟩

/-- The data of a renamed value are those of the value. -/
theorem Heap.Renamed.toJson {v : Value} (covers : f.Covers v) (refuse : String → DataFault) (depth : Nat) {inside : List Addr}
    (within : ∀ a ∈ inside, f.domain a) :
    (v.rename f.map).toJson h' (fun w => .error (refuse (w.className h'))) depth (inside.map f.map) =
      v.toJson h (fun w => .error (refuse (w.className h))) depth inside := by
  induction depth generalizing v inside with
  | zero => rfl
  | succ depth ih =>
    cases v with
    | tuple items =>
      have each := fun (u : Value) member => ih (covers.items u member) within
      simp only [Value.rename, Value.renameAll_eq_map, Value.toJson, List.mapM_map, Function.comp_def, mapM_congr each]
    | ref a =>
      have there := Renaming.covers_ref.mp covers
      obtain ⟨covered, same⟩ := renamed.found there
      have nested : ∀ b ∈ a :: inside, f.domain b := List.forall_mem_cons.mpr ⟨there, within⟩
      have answered := contains_rename within there
      by_cases again : inside.contains a = true
      · rw [again] at answered
        simp only [Value.rename, Value.toJson, answered, again, if_true]
      rw [Bool.not_eq_true] at again
      rw [again] at answered
      simp only [Value.rename, Value.toJson, answered, again, Bool.false_eq_true, if_false, same, ← List.map_cons (f := f.map)]
      cases held : h.object a with
      | list items =>
        rw [held] at covered
        have each := fun (u : Value) member => ih (Renaming.coversAll_iff.mp covered u member) nested
        simp only [Object.rename, Array.toList_map, List.mapM_map, Function.comp_def, mapM_congr each]
      | dict entries =>
        rw [held] at covered
        have covered := Entries.coveredBy_iff.mp covered
        simp only [Object.rename, Array.toList_map, List.mapM_map]
        refine congrArg (· >>= _) (mapM_congr (fun entry member => ?_))
        obtain ⟨key, value⟩ := covered entry (Array.mem_toList_iff.mp member)
        simp only [Function.comp_apply, Entry.rename, memberName_rename renamed key, ih value nested]
      | _ =>
        have className := renamed.className covers
        simp only [Value.rename] at className
        simp only [Object.rename, className]
    | slice lower upper step =>
      have className := renamed.className covers
      simp only [Value.rename] at className ⊢
      simp only [Value.toJson, className]
    | bound m receiver =>
      have className := renamed.className covers
      simp only [Value.rename] at className ⊢
      simp only [Value.toJson, className]
    | _ => rfl

theorem Heap.Renamed.data {v : Value} (covers : f.Covers v) : (v.rename f.map).data h' = v.data h :=
  renamed.toJson covers .notData _ (show ∀ a ∈ ([] : List Addr), f.domain a by simp)

end

end Workflow.Script
