import Workflow.Proofs.Contexts
import Workflow.Proofs.Fallible
import Workflow.Proofs.Heaps
import Workflow.Script.Data

/-! What the texts of values depend on: the objects that are reached from them. And what the data of values depend
on: nothing but the values, once they are plain. -/

namespace Workflow.Script
open Fallible

theorem Value.mem_addressesOf {a : Addr} {values : List Value} :
    a ∈ Value.addressesOf values ↔ ∃ v ∈ values, a ∈ v.addresses := by
  induction values with
  | nil => simp [Value.addressesOf]
  | cons v rest ih => simp [Value.addressesOf, ih]

namespace Heap
variable {h h' : Heap} {v w : Value} {a b : Addr}

/-- Two heaps have the same objects wherever they are reached from a value. -/
def Agrees (h h' : Heap) (v : Value) : Prop := ∀ a, h.Reaches v a → h'.object a = h.object a

theorem Reaches.part (reaches : h.Reaches w b) (inside : ∀ a ∈ w.addresses, h.Reaches v a) : h.Reaches v b := by
  induction reaches with
  | here named => exact inside _ named
  | deeper before named ih => exact .deeper ih named

theorem Agrees.part (agrees : h.Agrees h' v) (inside : ∀ a ∈ w.addresses, h.Reaches v a) : h.Agrees h' w :=
  fun b reaches => agrees b (reaches.part inside)

theorem Agrees.item (agrees : h.Agrees h' v) {items : List Value} (whole : ∀ a ∈ Value.addressesOf items, h.Reaches v a)
    (member : w ∈ items) : h.Agrees h' w :=
  agrees.part (fun a named => whole a (Value.mem_addressesOf.mpr ⟨w, member, named⟩))

end Heap

theorem Members.mem_walk {v : Value} {members : Array Value} (member : v ∈ Members.walk members) : v ∈ members.toList := by
  unfold Members.walk at member
  split at member
  · exact List.mem_mergeSort.mp member
  · exact member

theorem Fields.get?_mem {fields : Fields} {name : String} {v : Value} (found : Fields.get? fields name = some v) :
    v ∈ fields.toList.map (·.2) := by
  obtain ⟨field, there, rfl⟩ := Option.map_eq_some_iff.mp found
  exact List.mem_map_of_mem (Array.mem_toList_iff.mpr (Array.mem_of_find?_eq_some there))

section
variable {write write' : Bool → Value → Except RenderFault String}

theorem fieldTexts_congr {fields : List (String × Value)}
    (same : ∀ field ∈ fields, write' true field.2 = write true field.2) :
    fieldTexts (write' true) fields = fieldTexts (write true) fields := by
  refine mapM_congr (fun field member => ?_)
  obtain ⟨name, v⟩ := field
  simp only [same _ member]

theorem entryTexts_congr {entries : List (Value × Value)}
    (same : ∀ entry ∈ entries, write' true entry.1 = write true entry.1 ∧ write' true entry.2 = write true entry.2) :
    entryTexts (write' true) entries = entryTexts (write true) entries := by
  refine mapM_congr (fun entry member => ?_)
  obtain ⟨key, v⟩ := entry
  obtain ⟨first, second⟩ := same _ member
  simp only [first, second]

theorem errorText_congr {c : ErrorClass} {args : List Value} (same : ∀ v ∈ args, ∀ quoted, write' quoted v = write quoted v) :
    errorText write' c args = errorText write c args := by
  have all : args.mapM (write' true) = args.mapM (write true) := mapM_congr (fun v member => same v member true)
  unfold errorText
  split
  · rfl
  · next arg => rw [same arg (by simp) true, same arg (by simp) false]
  · next number reason rest =>
    have first := same number (by simp) false
    have second := same reason (by simp) false
    split
    · split
      · next file others => rw [first, second, same file (by simp) true]
      · rw [first, second]
    · rw [all]

end

theorem mem_entryValues {entry : Value × Value} {entries : List (Value × Value)} (member : entry ∈ entries) :
    entry.1 ∈ entries.flatMap (fun (key, v) => [key, v]) ∧ entry.2 ∈ entries.flatMap (fun (key, v) => [key, v]) := by
  constructor <;> exact List.mem_flatMap.mpr ⟨_, member, by simp⟩

theorem Part.addresses_of {part : Part} {entry : Value × Value} {entries : List (Value × Value)} (member : entry ∈ entries)
    {a : Addr} (named : a ∈ (part.of entry).addresses) :
    a ∈ Value.addressesOf (entries.flatMap (fun (key, v) => [key, v])) := by
  obtain ⟨first, second⟩ := mem_entryValues member
  obtain ⟨key, v⟩ := entry
  cases part with
  | keys => exact Value.mem_addressesOf.mpr ⟨key, first, named⟩
  | values => exact Value.mem_addressesOf.mpr ⟨v, second, named⟩
  | items =>
    have either : a ∈ key.addresses ∨ a ∈ v.addresses := by
      simpa [Part.of, Value.addresses, Value.addressesOf] using named
    obtain named | named := either
    · exact Value.mem_addressesOf.mpr ⟨key, first, named⟩
    · exact Value.mem_addressesOf.mpr ⟨v, second, named⟩

/-- The written form of an object that is reached is the same if its parts are written the same. -/
theorem Object.write_congr {h h' : Heap} {v : Value} {a : Addr} {write write' : Bool → Value → Except RenderFault String}
    (quoted : Bool) (agrees : h.Agrees h' v) (reached : h.Reaches v a)
    (same : ∀ w : Value, (∀ b ∈ w.addresses, h.Reaches v b) → ∀ quoted, write' quoted w = write quoted w) :
    (h.object a).write h' a write' quoted = (h.object a).write h a write quoted := by
  have whole : ∀ b ∈ (h.object a).addresses, h.Reaches v b := fun b named => .deeper reached named
  have each (items : List Value) (inside : ∀ b ∈ Value.addressesOf items, h.Reaches v b) :
      ∀ w ∈ items, ∀ quoted, write' quoted w = write quoted w :=
    fun w member => same w (fun b named => inside b (Value.mem_addressesOf.mpr ⟨w, member, named⟩))
  generalize h.object a = o at whole
  cases o with
  | list items =>
    have row : items.toList.mapM (write' true) = items.toList.mapM (write true) :=
      mapM_congr (fun w member => each _ whole w member true)
    simp only [Object.write, row]
  | dict entries =>
    have pairs : entryTexts (write' true) entries.toList = entryTexts (write true) entries.toList := by
      refine entryTexts_congr (fun entry member => ?_)
      obtain ⟨first, second⟩ := mem_entryValues member
      exact ⟨each _ whole _ first true, each _ whole _ second true⟩
    simp only [Object.write, pairs]
  | set members =>
    have walked : (Members.walk members).mapM (write' true) = (Members.walk members).mapM (write true) :=
      mapM_congr (fun w member => each _ whole w (Members.mem_walk member) true)
    simp only [Object.write, walked]
  | record kind fields =>
    have own : ∀ field ∈ fields.toList, write' true field.2 = write true field.2 :=
      fun field member => each _ whole _ (List.mem_map_of_mem member) true
    have named (names : List String) : ∀ field ∈ names.map (fun n => (n, (Fields.get? fields n).getD .nothing)),
        write' true field.2 = write true field.2 := by
      intro field member
      obtain ⟨name, -, rfl⟩ := List.mem_map.mp member
      cases found : Fields.get? fields name with
      | none => exact same .nothing (fun b named => absurd named List.not_mem_nil) true
      | some v => exact each _ whole v (Fields.get?_mem found) true
    cases kind <;> simp only [Object.write, fieldTexts_congr own, fieldTexts_congr (named _)]
  | error c args fields =>
    have given : ∀ w ∈ args, ∀ quoted, write' quoted w = write quoted w :=
      fun w member => each _ whole w (List.mem_append_left _ member)
    have row : args.mapM (write' true) = args.mapM (write true) := mapM_congr (fun w member => given w member true)
    simp only [Object.write, row, errorText_congr given]
  | view part source =>
    have there := whole source (List.mem_singleton.mpr rfl)
    have shown : ∀ entries, h.object source = .dict entries →
        (entries.toList.map part.of).mapM (write' true) = (entries.toList.map part.of).mapM (write true) := by
      intro entries found
      refine mapM_congr (fun w member => ?_)
      obtain ⟨entry, inside, rfl⟩ := List.mem_map.mp member
      refine same _ (fun b named => ?_) true
      refine .deeper there ?_
      rw [found]
      exact Part.addresses_of inside named
    simp only [Object.write, agrees source there]
    split
    · next found => rw [shown _ found]
    · rfl
  | iterator it => cases it <;> rfl
  | _ => rfl

/-- A value is written the same where the objects that are reached from it are the same, inside of whatever other objects. -/
theorem Value.write_congr_inside {h h' : Heap} {v : Value} (agrees : h.Agrees h' v) (depth : Nat) {inside inside' : List Addr}
    (same : ∀ a, h.Reaches v a → inside'.contains a = inside.contains a) (quoted : Bool) :
    v.write h' depth inside' quoted = v.write h depth inside quoted := by
  induction depth generalizing v inside inside' quoted with
  | zero => rfl
  | succ depth ih =>
    have parts (items : List Value) (whole : ∀ a ∈ Value.addressesOf items, h.Reaches v a) :
        items.mapM (Value.write h' depth inside' true) = items.mapM (Value.write h depth inside true) := by
      refine mapM_congr (fun w member => ih (agrees.item whole member) (fun a reaches => same a ?_) true)
      exact reaches.part (fun b named => whole b (Value.mem_addressesOf.mpr ⟨w, member, named⟩))
    cases v with
    | tuple items => simp only [Value.write, parts items (fun _ named => .here named)]
    | slice lower upper step =>
      have three := parts [lower, upper, step] (fun a named => .here (by
        simpa [Value.addresses, Value.addressesOf] using named))
      simp only [Value.write, three]
    | bound m receiver =>
      have type : receiver.typeName h' = receiver.typeName h := by
        cases receiver with
        | ref a => simp only [Value.typeName, Value.classOf, agrees a (.here (List.mem_singleton.mpr rfl))]
        | _ => rfl
      simp only [Value.write, type]
    | ref a =>
      have reached : h.Reaches (.ref a) a := .here (List.mem_singleton.mpr rfl)
      have deeper (w : Value) (whole : ∀ b ∈ w.addresses, h.Reaches (.ref a) b) (b : Addr) (reaches : h.Reaches w b) :
          (a :: inside').contains b = (a :: inside).contains b := by
        rw [List.contains_cons, List.contains_cons, same b (reaches.part whole)]
      have written := Object.write_congr quoted agrees reached
        (fun w whole quoted => ih (agrees.part whole) (deeper w whole) quoted)
      simp only [Value.write, agrees a reached, same a reached, written]
    | _ => rfl

theorem Value.write_congr {h h' : Heap} {v : Value} (agrees : h.Agrees h' v) (depth : Nat) (inside : List Addr)
    (quoted : Bool) : v.write h' depth inside quoted = v.write h depth inside quoted :=
  Value.write_congr_inside agrees depth (fun _ _ => rfl) quoted

/-- What could be written can be written when there is more in the heap, unless an object was missing before. -/
theorem Value.plain_extends {h h' : Heap} {v : Value} {s : String} (grows : h.Extends h') (written : v.plain h = .ok s) :
    v.plain h' = .ok s ∨ ∃ a, h.Reaches v a ∧ h.objects[a]? = none := by
  by_cases missing : ∃ a, h.Reaches v a ∧ h.objects[a]? = none
  · exact .inr missing
  · left
    have agrees : h.Agrees h' v := by
      intro a reaches
      cases found : h.objects[a]? with
      | none => exact absurd ⟨a, reaches, found⟩ missing
      | some o => rw [Heap.object_of_getElem? found, Heap.object_of_getElem? (grows a o found)]
    rw [← written]
    exact Value.write_congr agrees _ _ _

theorem Value.toJson_dict {h : Heap} {other : Value → Except DataFault Json} {depth : Nat} {inside : List Addr} {a : Addr}
    {entries : Entries} (outside : inside.contains a = false) (found : h.object a = .dict entries) :
    Value.toJson h other (depth + 1) inside (.ref a) = do
      return .object (← entries.toList.mapM (fun (key, w) => do
        let name ← memberName h key
        return (name, ← w.toJson h other depth (a :: inside)))) := by
  simp only [Value.toJson, outside, found]
  rfl

/-- Data that are plain are the same whatever becomes of other values, with more depth and inside fewer objects. -/
theorem Value.toJson_plain {h : Heap} {refuse : Value → DataFault} (other : Value → Except DataFault Json)
    {depth depth' : Nat} {inside inside' : List Addr} {v : Value} {j : Json}
    (plain : v.toJson h (fun w => .error (refuse w)) depth inside = .ok j) (deeper : depth ≤ depth')
    (fewer : inside' ⊆ inside) : v.toJson h other depth' inside' = .ok j := by
  induction depth generalizing v j depth' inside inside' with
  | zero => cases plain
  | succ depth ih =>
    obtain ⟨depth', rfl⟩ : ∃ n, depth' = n + 1 := ⟨depth' - 1, by omega⟩
    have deeper : depth ≤ depth' := by omega
    cases v with
    | tuple items =>
      simp only [Value.toJson] at plain ⊢
      exact bind_ok_imp plain (fun js row => mapM_ok_imp row (fun w _ j ok => ih ok deeper fewer)) (fun _ done => done)
    | ref a =>
      have nested : a :: inside' ⊆ a :: inside := List.cons_subset_cons a fewer
      simp only [Value.toJson] at plain ⊢
      split at plain
      · cases plain
      · next outside =>
        have outside : ¬ inside'.contains a = true := by
          simpa using fun member => outside (by simpa using fewer member)
        rw [if_neg outside]
        split at plain
        · next items found =>
          exact bind_ok_imp plain (fun js row => mapM_ok_imp row (fun w _ j ok => ih ok deeper nested)) (fun _ done => done)
        · next entries found =>
          refine bind_ok_imp plain (fun ms row => mapM_ok_imp row (fun entry _ m ok => ?_)) (fun _ done => done)
          refine bind_ok_imp ok (fun name named => named) (fun name ok => ?_)
          exact bind_ok_imp ok (fun j ok => ih ok deeper nested) (fun _ done => done)
        · cases plain
    | _ => first
      | exact plain
      | cases plain

end Workflow.Script
