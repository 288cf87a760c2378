import Workflow.Proofs.Akin

/-! Whether values can be written. The text of a function or of an iterator shows its address, so it is not the same for an
object that lies elsewhere, but there is one, or else there is none for the same reason. -/

namespace Workflow.Script

/-- Two computations come to something, or fail in the same. -/
inductive SameKind : Except ε α → Except ε β → Prop where
  | ok (a : α) (b : β) : SameKind (.ok a) (.ok b)
  | error (e : ε) : SameKind (.error e) (.error e)

namespace SameKind

theorem refl (x : Except ε α) : SameKind x x := by
  cases x with
  | ok a => exact .ok a a
  | error e => exact .error e

theorem bind {x : Except ε α} {y : Except ε β} {k : α → Except ε γ} {l : β → Except ε δ} (first : SameKind x y)
    (rest : ∀ a b, SameKind (k a) (l b)) : SameKind (x >>= k) (y >>= l) := by
  cases first with
  | ok a b => exact rest a b
  | error e => exact .error e

theorem map {x : Except ε α} {y : Except ε β} (first : SameKind x y) (k : α → γ) (l : β → δ) :
    SameKind (x.map k) (y.map l) := by
  cases first with
  | ok a b => exact .ok _ _
  | error e => exact .error e

theorem mapM {k : α → Except ε γ} {g : α → β} {l : β → Except ε δ} {items : List α}
    (each : ∀ a ∈ items, SameKind (k a) (l (g a))) : SameKind (items.mapM k) ((items.map g).mapM l) := by
  induction items with
  | nil => exact .ok [] []
  | cons a rest ih =>
    rw [List.map_cons, List.mapM_cons, List.mapM_cons]
    refine (each a List.mem_cons_self).bind (fun c d => ?_)
    exact (ih (fun b member => each b (List.mem_cons_of_mem _ member))).bind (fun _ _ => .ok _ _)

end SameKind

theorem Members.walk_rename (f : Addr → Addr) (members : Array Value) :
    Members.walk (members.map (Value.rename f)) = (Members.walk members).map (Value.rename f) := by
  have numbered : (members.map (Value.rename f)).all (fun v => v.int?.any (0 ≤ ·)) =
      members.all (fun v => v.int?.any (0 ≤ ·)) := by
    rw [Array.all_map]
    congr 1
    funext v
    exact congrArg _ (Value.int?_rename f v)
  unfold Members.walk
  rw [numbered]
  split
  · rw [Array.toList_map]
    refine (List.map_mergeSort (fun v _ w _ => ?_)).symm
    simp only [Value.int?_rename]
  · rw [Array.toList_map]

section
variable {f : Renaming} {h h' : Heap} (renamed : h.Renamed f h') {write write' : Bool → Value → Except RenderFault String}
  (same : ∀ quoted v, f.Covers v → SameKind (write quoted v) (write' quoted (v.rename f.map)))
include same

theorem rowTexts_kind {values : List Value} (covers : f.CoversAll values) (quoted : Bool) :
    SameKind (values.mapM (write quoted)) ((values.map (Value.rename f.map)).mapM (write' quoted)) :=
  .mapM (fun v member => same quoted v (covers v member))

theorem fieldTexts_kind {fields : List (String × Value)} (covers : f.CoversAll (fields.map (·.2))) :
    SameKind (fieldTexts (write true) fields) (fieldTexts (write' true) (fields.map (Field.rename f.map))) :=
  .mapM (fun field member => (same true field.2 (covers _ (List.mem_map_of_mem member))).map _ _)

theorem entryTexts_kind {entries : List (Value × Value)} (covers : ∀ entry ∈ entries, f.Covers entry.1 ∧ f.Covers entry.2) :
    SameKind (entryTexts (write true) entries) (entryTexts (write' true) (entries.map (Entry.rename f.map))) := by
  refine .mapM (fun entry member => ?_)
  obtain ⟨key, value⟩ := covers entry member
  exact (same true _ key).bind (fun _ _ => (same true _ value).bind (fun _ _ => .ok _ _))

theorem errorText_kind {c : ErrorClass} {args : List Value} (covers : f.CoversAll args) :
    SameKind (errorText write c args) (errorText write' c (args.map (Value.rename f.map))) := by
  match args, covers with
  | [], _ => exact .ok _ _
  | [arg], covers =>
    have inside := covers arg (by simp)
    simp only [errorText, List.map_cons, List.map_nil]
    split
    · exact same true _ inside
    · exact same false _ inside
  | number :: reason :: rest, covers =>
    have first := same false number (covers number (by simp))
    have second := same false reason (covers reason (by simp))
    simp only [errorText, List.map_cons]
    split
    · cases rest with
      | nil => exact .bind (.ok _ _) (fun _ _ => first.bind (fun _ _ => second.bind (fun _ _ => .ok _ _)))
      | cons file others =>
        have third := same true file (covers file (by simp))
        exact (third.map _ _).bind (fun _ _ => first.bind (fun _ _ => second.bind (fun _ _ => .ok _ _)))
    · have row := rowTexts_kind same covers true
      rw [List.map_cons, List.map_cons] at row
      exact row.bind (fun _ _ => .ok _ _)

include renamed

theorem Object.write_kind {o : Object} (covers : f.CoversObject o) (a b : Addr) (quoted : Bool) :
    SameKind (o.write h a write quoted) ((o.rename f.map).write h' b write' quoted) := by
  cases o with
  | list items =>
    have row := rowTexts_kind same (Object.coversAll covers) true
    simp only [Object.rename, Object.write, Array.toList_map]
    exact row.bind (fun _ _ => .ok _ _)
  | dict entries =>
    have pairs := entryTexts_kind same (fun entry member =>
      Entries.coveredBy_iff.mp covers entry (Array.mem_toList_iff.mp member))
    simp only [Object.rename, Object.write, Array.toList_map]
    exact pairs.bind (fun _ _ => .ok _ _)
  | set members =>
    have inside : f.CoversAll (Members.walk members) := fun v member => Object.coversAll covers v (Members.mem_walk member)
    have walked := rowTexts_kind same inside true
    simp only [Object.rename, Object.write, isEmpty_map, Members.walk_rename]
    split
    · exact .ok _ _
    · exact walked.bind (fun _ _ => .ok _ _)
  | record kind fields =>
    have own := fieldTexts_kind same (Object.coversAll covers)
    have inside (names : List String) :
        f.CoversAll ((names.map (fun n => (n, (Fields.get? fields n).getD .nothing))).map (·.2)) := by
      intro v member
      obtain ⟨field, there, rfl⟩ := List.mem_map.mp member
      obtain ⟨name, -, rfl⟩ := List.mem_map.mp there
      cases found : Fields.get? fields name with
      | none => exact Value.isBare.covers (v := .nothing) rfl f
      | some v => exact Object.coversAll covers v (Fields.get?_mem found)
    have named (names : List String) := fieldTexts_kind same (inside names)
    have shown (names : List String) : (names.map (fun n => (n, (Fields.get? fields n).getD .nothing))).map (Field.rename f.map) =
        names.map (fun n => (n, (Fields.get? (fields.map (Field.rename f.map)) n).getD .nothing)) := by
      rw [List.map_map]
      refine List.map_congr_left (fun name _ => ?_)
      simp only [Function.comp_apply, Field.rename, Fields.get?_rename]
      cases Fields.get? fields name <;> rfl
    simp only [shown] at named
    cases kind with
    | «namespace» =>
      simp only [Object.rename, Object.write, Array.toList_map]
      exact own.bind (fun _ _ => .ok _ _)
    | _ => exact (named _).bind (fun _ _ => .ok _ _)
  | error c args fields =>
    have given : f.CoversAll args := fun v member => Object.coversAll covers v (List.mem_append_left _ member)
    simp only [Object.rename, Object.write]
    split
    · exact (rowTexts_kind same given true).bind (fun _ _ => .ok _ _)
    · exact errorText_kind same given
  | view part source =>
    obtain ⟨inside, shown⟩ := renamed.found (covers source (List.mem_singleton.mpr rfl))
    simp only [Object.rename, Object.write, shown]
    cases held : h.object source with
    | dict entries =>
      rw [held] at inside
      have covered := Entries.coveredBy_iff.mp inside
      have parts (entry : Value × Value) : part.of (Entry.rename f.map entry) = (part.of entry).rename f.map := by
        cases part <;> simp [Part.of, Entry.rename, Value.rename, Value.renameAll]
      have inside : f.CoversAll (entries.toList.map part.of) := by
        intro v member
        obtain ⟨entry, there, rfl⟩ := List.mem_map.mp member
        obtain ⟨key, value⟩ := covered entry (Array.mem_toList_iff.mp there)
        cases part with
        | keys => exact key
        | values => exact value
        | items => exact Renaming.CoversAll.tuple (by simp [Renaming.CoversAll, key, value])
      have row := rowTexts_kind same inside true
      have renames : (entries.map (Entry.rename f.map)).toList.map part.of =
          (entries.toList.map part.of).map (Value.rename f.map) := by
        rw [Array.toList_map, List.map_map, List.map_map]
        exact List.map_congr_left (fun entry _ => parts entry)
      simp only [renames]
      exact row.bind (fun _ _ => .ok _ _)
    | _ => exact .ok _ _
  | iterator it => cases it <;> exact .ok _ _
  | _ => exact .ok _ _

end

/-- A value can be written exactly if it can be written elsewhere. -/
theorem Heap.Renamed.written {f : Renaming} {h h' : Heap} (renamed : h.Renamed f h') (depth : Nat) {inside : List Addr}
    (within : ∀ a ∈ inside, f.domain a) (quoted : Bool) {v : Value} (covers : f.Covers v) :
    SameKind (v.write h depth inside quoted) ((v.rename f.map).write h' depth (inside.map f.map) quoted) := by
  induction depth generalizing inside quoted v with
  | zero => exact .error _
  | succ depth ih =>
    have same (quoted : Bool) (v : Value) (covers : f.Covers v) := ih within quoted covers
    cases v with
    | tuple items =>
      have row := rowTexts_kind same covers.items true
      simp only [Value.rename, Value.renameAll_eq_map, Value.write]
      exact row.bind (fun _ _ => .ok _ _)
    | slice lower upper step =>
      have parts : f.CoversAll [lower, upper, step] := by
        intro v member a named
        refine covers a ?_
        simp only [List.mem_cons, List.not_mem_nil, or_false] at member
        obtain rfl | rfl | rfl := member <;> simp [Value.addresses, named]
      have row := rowTexts_kind same parts true
      simp only [Value.rename, Value.write]
      exact row.bind (fun _ _ => .ok _ _)
    | ref a =>
      have there := Renaming.covers_ref.mp covers
      obtain ⟨covered, found⟩ := renamed.found there
      have answered := contains_rename within there
      simp only [Value.rename, Value.write, answered, found]
      split
      · exact .ok _ _
      · have deeper (quoted : Bool) (v : Value) (covers : f.Covers v) :=
          ih (List.forall_mem_cons.mpr ⟨there, within⟩) quoted covers
        exact Object.write_kind renamed deeper covered a (f.map a) quoted
    | int n => exact .refl _
    | _ => exact .ok _ _

theorem Heap.Renamed.plain {f : Renaming} {h h' : Heap} (renamed : h.Renamed f h') {v : Value} (covers : f.Covers v) :
    SameKind (v.plain h) ((v.rename f.map).plain h') :=
      renamed.written _ (show ∀ a ∈ ([] : List Addr), f.domain a by simp) false covers

theorem Heap.Renamed.quoted {f : Renaming} {h h' : Heap} (renamed : h.Renamed f h') {v : Value} (covers : f.Covers v) :
    SameKind (v.quoted h) ((v.rename f.map).quoted h') :=
      renamed.written _ (show ∀ a ∈ ([] : List Addr), f.domain a by simp) true covers

end Workflow.Script
