import Workflow.Proofs.Notations
import Workflow.Proofs.Problems
import Workflow.Proofs.Written

/-! How the definitions of steps that are texts are written out in their mapping. The heap afterwards differs from the one before
in that mapping alone, and what is not judged by a look at it is judged the same. -/

namespace Workflow.Document
open Script (Addr Entries Heap Object Value)

/-! Heaps that differ in one mapping. -/

/-- There may be more in a heap than in another one, and a mapping may have other entries. -/
structure Rewrites (a : Addr) (h h' : Heap) : Prop where
  others : ∀ b o, b ≠ a → h.objects[b]? = some o → h'.objects[b]? = some o
  mapping : ∃ entries entries', h.objects[a]? = some (.dict entries) ∧ h'.objects[a]? = some (.dict entries') ∧
    entries.isEmpty = false ∧ entries'.isEmpty = false

/-- A mapping reaches what its keys and values reach. -/
theorem reaches_part {h : Heap} {v : Value} {entries : Entries} {entry : Value × Value} {b : Addr}
    (made : v.entries? h = some entries) (member : entry ∈ entries.toList) (reaches : h.Reaches entry.1 b ∨ h.Reaches entry.2 b) :
    h.Reaches v b := by
  cases v with
  | ref a =>
    have found : h.object a = .dict entries := by
      simp only [Value.entries?] at made
      split at made
      · next found => rw [found, Option.some.inj made]
      · cases made
    have whole : ∀ c ∈ (Object.dict entries).addresses, h.Reaches (.ref a) c := by
      intro c named
      rw [← found] at named
      exact .deeper (.here (List.mem_singleton.mpr rfl)) named
    obtain ⟨first, second⟩ := Script.mem_entryValues member
    obtain reaches | reaches := reaches
    · exact reaches.part (fun c named => whole c (Value.mem_addressesOf.mpr ⟨_, first, named⟩))
    · exact reaches.part (fun c named => whole c (Value.mem_addressesOf.mpr ⟨_, second, named⟩))
  | _ => cases made

/-- All that a value is made of is there. -/
def Inside (h : Heap) (v : Value) : Prop := ∀ b, h.Reaches v b → b < h.objects.size

namespace Inside
variable {h : Heap} {v : Value} {entries : Entries}

theorem parts (inside : Inside h v) (made : v.entries? h = some entries) :
    ∀ entry ∈ entries.toList, Inside h entry.1 ∧ Inside h entry.2 := fun _ member =>
  ⟨fun b reaches => inside b (reaches_part made member (.inl reaches)),
   fun b reaches => inside b (reaches_part made member (.inr reaches))⟩

/-- A value without addresses reaches nothing. -/
theorem unreached {v : Value} {b : Addr} (none : v.addresses = []) : ¬ h.Reaches v b := by
  intro reaches
  induction reaches with
  | here named =>
    rw [none] at named
    cases named
  | deeper before named ih => exact ih

theorem valueOf (inside : Inside h v) (made : v.entries? h = some entries) (name : String) :
    Inside h (Document.valueOf entries name) := by
  cases found : Entries.named? entries name with
  | none =>
    rw [Document.valueOf, found]
    exact fun b reaches => absurd reaches (unreached rfl)
  | some w =>
    rw [Document.valueOf, found]
    obtain ⟨entry, there, rfl⟩ := Option.map_eq_some_iff.mp found
    exact (inside.parts made entry (Array.mem_toList_iff.mpr (Array.mem_of_find?_eq_some there))).2

/-- Nothing is reached from a heap that has all that is named in it but what is there. -/
theorem of_closed (here : ∀ a ∈ v.addresses, a < h.objects.size)
    (closed : ∀ a, a < h.objects.size → ∀ b ∈ (h.object a).addresses, b < h.objects.size) : Inside h v := by
  intro b reaches
  induction reaches with
  | here named => exact here _ named
  | deeper before named ih => exact closed _ ih _ named

end Inside

namespace Rewrites
variable {a : Addr} {h h' h'' : Heap} {v : Value}

theorem refl {entries : Entries} (found : h.objects[a]? = some (.dict entries)) (nonempty : entries.isEmpty = false) :
    Rewrites a h h := ⟨fun _ _ _ found => found, entries, entries, found, found, nonempty, nonempty⟩

theorem trans (first : Rewrites a h h') (second : Rewrites a h' h'') : Rewrites a h h'' := by
  obtain ⟨entries, _, before, -, nonempty, -⟩ := first.mapping
  obtain ⟨_, entries', -, after, -, nonempty'⟩ := second.mapping
  exact ⟨fun b o other found => second.others b o other (first.others b o other found), entries, entries', before, after,
    nonempty, nonempty'⟩

variable (rewrites : Rewrites a h h')
include rewrites

theorem inside : a < h.objects.size := by
  obtain ⟨_, _, before, -⟩ := rewrites.mapping
  obtain ⟨there, -⟩ := Array.getElem?_eq_some_iff.mp before
  exact there

/-- More may be written afterwards. -/
theorem settled : Rewrites a h' h' := by
  obtain ⟨_, _, -, after, -, nonempty⟩ := rewrites.mapping
  exact .refl after nonempty

theorem object {b : Addr} (other : b ≠ a) (there : b < h.objects.size) : h'.object b = h.object b := by
  have found := Array.getElem?_eq_getElem there
  rw [Heap.object_of_getElem? found, Heap.object_of_getElem? (rewrites.others b _ other found)]

/-- Wherever the mapping is looked at, it is a mapping with entries. -/
theorem objects {b : Addr} (there : b < h.objects.size) : h'.object b = h.object b ∨
    ∃ entries entries', h.object b = .dict entries ∧ h'.object b = .dict entries' ∧ entries.isEmpty = false ∧
      entries'.isEmpty = false := by
  by_cases other : b = a
  · subst other
    obtain ⟨entries, entries', before, after, nonempties⟩ := rewrites.mapping
    exact .inr ⟨entries, entries', Heap.object_of_getElem? before, Heap.object_of_getElem? after, nonempties⟩
  · exact .inl (rewrites.object other there)

theorem entries (inside : Inside h v) (other : v ≠ .ref a) : v.entries? h' = v.entries? h := by
  cases v with
  | ref b =>
    have there := inside b (.here (List.mem_singleton.mpr rfl))
    simp only [Value.entries?, rewrites.object (fun same => other (congrArg Value.ref same)) there]
  | _ => rfl

theorem isMapping (inside : Inside h v) : (v.entries? h').isSome = (v.entries? h).isSome := by
  cases v with
  | ref b =>
    have there := inside b (.here (List.mem_singleton.mpr rfl))
    simp only [Value.entries?]
    obtain same | ⟨entries, entries', before, after, -⟩ := rewrites.objects there
    · rw [same]
    · rw [before, after]
      rfl
  | _ => rfl

theorem isList (inside : Inside h v) : (v.listItems? h').isSome = (v.listItems? h).isSome := by
  cases v with
  | ref b =>
    have there := inside b (.here (List.mem_singleton.mpr rfl))
    simp only [Value.listItems?]
    obtain same | ⟨entries, entries', before, after, -⟩ := rewrites.objects there
    · rw [same]
    · rw [before, after]
  | _ => rfl

theorem className (inside : Inside h v) : v.className h' = v.className h := by
  cases v with
  | ref b =>
    have there := inside b (.here (List.mem_singleton.mpr rfl))
    simp only [Value.className, Value.classOf]
    obtain same | ⟨entries, entries', before, after, -⟩ := rewrites.objects there
    · rw [same]
    · rw [before, after]
      rfl
  | _ => rfl

theorem truth (inside : Inside h v) : v.truth h' = v.truth h := by
  cases v with
  | ref b =>
    have reached : h.Reaches (.ref b) b := .here (List.mem_singleton.mpr rfl)
    simp only [Value.truth]
    obtain same | ⟨entries, entries', before, after, nonempty, nonempty'⟩ := rewrites.objects (inside b reached)
    · rw [same]
      split
      · rfl
      · rfl
      · rfl
      · next part source found =>
        -- A view of the mapping has entries before and after.
        have there := inside source (.deeper reached (by rw [found]; exact List.mem_singleton.mpr rfl))
        obtain same | ⟨entries, entries', before, after, nonempty, nonempty'⟩ := rewrites.objects there
        · rw [same]
        · rw [before, after]
          simp only [nonempty, nonempty']
      · rfl
    · rw [before, after]
      simp only [nonempty, nonempty']
  | _ => rfl

theorem agrees (inside : Inside h v) (apart : ¬ h.Reaches v a) : h.Agrees h' v := by
  intro b reaches
  refine rewrites.object (fun same => ?_) (inside b reaches)
  subst same
  exact apart reaches

theorem plain (inside : Inside h v) (apart : ¬ h.Reaches v a) : v.plain h' = v.plain h :=
  Value.write_congr (rewrites.agrees inside apart) _ _ _

theorem quoted (inside : Inside h v) (apart : ¬ h.Reaches v a) : v.quoted h' = v.quoted h :=
  Value.write_congr (rewrites.agrees inside apart) _ _ _

theorem shown (inside : Inside h v) (apart : ¬ h.Reaches v a) : Fault.shown h' v = Fault.shown h v := by
  simp only [Fault.shown, rewrites.plain inside apart]

theorem quotedText (inside : Inside h v) (apart : ¬ h.Reaches v a) : quotedText h' v = quotedText h v := by
  simp only [Document.quotedText, rewrites.quoted inside apart]

theorem legible (inside : Inside h v) (apart : ¬ h.Reaches v a) (legible : Legible h v) : Legible h' v := by
  rw [Legible, rewrites.plain inside apart, rewrites.quoted inside apart]
  exact legible

theorem versionProblems (inside : Inside h v) : versionProblems h' v = versionProblems h v := by
  have same := rewrites.className inside
  unfold Document.versionProblems
  rw [rewrites.truth inside]
  cases v with
  | str s => rfl
  | _ =>
    dsimp only
    rw [same]

end Rewrites

/-- All that the checks look at of an entry is the same in two heaps. -/
structure Judged (h h' : Heap) (entry : Value × Value) : Prop where
  shown : Fault.shown h' entry.1 = Fault.shown h entry.1
  quoted : quotedText h' entry.1 = quotedText h entry.1
  list : (entry.2.listItems? h').isSome = (entry.2.listItems? h).isSome
  entries : entry.2.entries? h' = entry.2.entries? h
  parts : ∀ {entries : Entries}, entry.2.entries? h = some entries → ∀ e ∈ entries.toList,
    Fault.shown h' e.1 = Fault.shown h e.1 ∧ (e.2.entries? h').isSome = (e.2.entries? h).isSome ∧
      (e.2.listItems? h').isSome = (e.2.listItems? h).isSome

theorem fieldProblems_congr {h h' : Heap} {names : List String} {text path : String} {entries : List (Value × Value)}
    (same : ∀ entry ∈ entries, Fault.shown h' entry.1 = Fault.shown h entry.1) :
    fieldProblems h' names text path entries = fieldProblems h names text path entries := by
  refine List.map_congr_left (fun entry member => ?_)
  rw [same entry (List.mem_of_mem_filter member)]

/-- The value under a name is one of the entries, or there is none. -/
theorem named_cases (entries : Entries) (name : String) :
    Entries.named? entries name = none ∨ ∃ entry ∈ entries.toList, Entries.named? entries name = some entry.2 := by
  cases found : Entries.named? entries name with
  | none => exact .inl rfl
  | some v =>
    obtain ⟨entry, there, rfl⟩ := Option.map_eq_some_iff.mp found
    exact .inr ⟨entry, Array.mem_toList_iff.mpr (Array.mem_of_find?_eq_some there), rfl⟩

namespace Judged
variable {h h' : Heap} {entry : Value × Value}

theorem schemaProblems (judged : Judged h h' entry) : schemaProblems h' entry = schemaProblems h entry := by
  unfold Document.schemaProblems
  rw [judged.shown, judged.list, judged.entries]
  cases made : entry.2.entries? h with
  | none => rfl
  | some config =>
    have steps : ((valueOf config "steps").listItems? h').isSome = ((valueOf config "steps").listItems? h).isSome := by
      obtain none | ⟨e, member, found⟩ := named_cases config "steps"
      · rw [valueOf, none]
        rfl
      · rw [valueOf, found]
        exact (judged.parts made e member).2.2
    dsimp only
    rw [fieldProblems_congr (fun e member => (judged.parts made e member).1), steps]

theorem stepProblems (judged : Judged h h' entry) : stepProblems h' entry = stepProblems h entry := by
  obtain ⟨id, config⟩ := entry
  cases id with
  | str id =>
    by_cases text : ∃ source, config = .str source
    · obtain ⟨source, rfl⟩ := text
      dsimp only [Document.stepProblems, definition?]
      rw [handler_only, handler_only]
    · have other : ∀ source, config ≠ .str source := fun source same => text ⟨source, same⟩
      have same : config.entries? h' = config.entries? h := judged.entries
      simp only [Document.stepProblems, definition?_other other, same]
      cases made : config.entries? h with
      | none => rfl
      | some entries =>
        have globals (path : String) : globalsProblems h' path entries = globalsProblems h path entries := by
          unfold globalsProblems
          obtain none | ⟨e, member, found⟩ := named_cases entries "globals"
          · simp only [none]
          · simp only [found, ← Option.not_isSome, (judged.parts made e member).2.1]
        dsimp only
        rw [fieldProblems_congr (fun e member => (judged.parts made e member).1), globals]
  | _ =>
    have quoted := judged.quoted
    dsimp only at quoted
    simp only [Document.stepProblems, quoted]

theorem entries_congr {v : Value} (agrees : h.Agrees h' v) : v.entries? h' = v.entries? h := by
  cases v with
  | ref b => simp only [Value.entries?, agrees b (.here (List.mem_singleton.mpr rfl))]
  | _ => rfl

theorem items_congr {v : Value} (agrees : h.Agrees h' v) : v.listItems? h' = v.listItems? h := by
  cases v with
  | ref b => simp only [Value.listItems?, agrees b (.here (List.mem_singleton.mpr rfl))]
  | _ => rfl

/-- What an entry reaches is all that is looked at. -/
theorem of_agrees (key : h.Agrees h' entry.1) (definition : h.Agrees h' entry.2) : Judged h h' entry where
  shown := by simp only [Fault.shown, Value.plain, Value.write_congr key]
  quoted := by simp only [quotedText, Value.quoted, Value.write_congr key]
  list := by rw [items_congr definition]
  entries := entries_congr definition
  parts made e member := by
    have first : h.Agrees h' e.1 := fun b reaches => definition b (reaches_part made member (.inl reaches))
    have second : h.Agrees h' e.2 := fun b reaches => definition b (reaches_part made member (.inr reaches))
    refine ⟨?_, by rw [entries_congr second], by rw [items_congr second]⟩
    simp only [Fault.shown, Value.plain, Value.write_congr first]

end Judged

/-- A definition under its key is judged without a look at a mapping. -/
structure Clear (h : Heap) (a : Addr) (entry : Value × Value) : Prop where
  key : Inside h entry.1
  definition : Inside h entry.2
  other : entry.2 ≠ .ref a
  keys : ∀ key ∈ definitionKeys h entry, ¬ h.Reaches key a

namespace Clear
variable {a : Addr} {h h' : Heap} {entry : Value × Value} {entries : Entries}

theorem apart (clear : Clear h a entry) : ¬ h.Reaches entry.1 a := clear.keys entry.1 List.mem_cons_self

theorem members (clear : Clear h a entry) (made : entry.2.entries? h = some entries) :
    ∀ e ∈ entries.toList, (Inside h e.1 ∧ ¬ h.Reaches e.1 a) ∧ Inside h e.2 := by
  intro e member
  obtain ⟨key, v⟩ := clear.definition.parts made e member
  exact ⟨⟨key, clear.keys e.1 (mem_definitionKeys made member)⟩, v⟩

theorem judged (clear : Clear h a entry) (rewrites : Rewrites a h h') : Judged h h' entry where
  shown := rewrites.shown clear.key clear.apart
  quoted := rewrites.quotedText clear.key clear.apart
  list := rewrites.isList clear.definition
  entries := rewrites.entries clear.definition clear.other
  parts made e member := by
    obtain ⟨⟨inside, apart⟩, v⟩ := clear.members made e member
    exact ⟨rewrites.shown inside apart, rewrites.isMapping v, rewrites.isList v⟩

theorem definitionKeys (clear : Clear h a entry) (rewrites : Rewrites a h h') :
    definitionKeys h' entry = definitionKeys h entry := by
  simp only [Document.definitionKeys, Document.members, rewrites.entries clear.definition clear.other]

theorem legible (clear : Clear h a entry) (rewrites : Rewrites a h h')
    (legible : ∀ key ∈ Document.definitionKeys h entry, Legible h key) : ∀ key ∈ Document.definitionKeys h' entry, Legible h' key := by
  rw [clear.definitionKeys rewrites]
  intro key member
  refine rewrites.legible ?_ (clear.keys key member) (legible key member)
  obtain rfl | member := List.mem_cons.mp member
  · exact clear.key
  · obtain ⟨e, inside, rfl⟩ := List.mem_map.mp member
    obtain ⟨entries, made, inside⟩ := mem_members.mp inside
    exact (clear.definition.parts made e inside).1

end Clear

/-- An entry of the steps is as it was, or its definition was a text and has been written out. -/
inductive Expands (h h' : Heap) : Value × Value → Value × Value → Prop where
  | same (entry) : Expands h h' entry entry
  | text {source c} (id) (fresh : h.objects.size ≤ c)
      (made : h'.objects[c]? = some (.dict #[(.str "handler", .str source)])) : Expands h h' (id, .str source) (id, .ref c)

namespace Expands
variable {a : Addr} {h h' : Heap} {entry entry' : Value × Value}

/-- A definition that has been written out stands for the same entries. -/
theorem definition {c : Addr} {source : String} (made : h'.objects[c]? = some (.dict #[(.str "handler", .str source)])) :
    definition? h' (.ref c) = definition? h (.str source) := by
  simp only [definition?, Value.entries?, Heap.object_of_getElem? made]

theorem stepSources (expands : Expands h h' entry entry') (clear : Clear h a entry) (rewrites : Rewrites a h h') :
    stepSources h' entry' = stepSources h entry := by
  cases expands with
  | same =>
    obtain ⟨id, config⟩ := entry
    have same : definition? h' config = definition? h config := by
      have same := rewrites.entries clear.definition clear.other
      cases config with
      | str source => rfl
      | _ => exact same
    cases id with
    | str id => simp only [Document.stepSources, same]
    | _ => rfl
  | text id fresh made =>
    cases id with
    | str id => simp only [Document.stepSources, definition (h := h) made]
    | _ => rfl

theorem stepProblems (expands : Expands h h' entry entry') (clear : Clear h a entry) (rewrites : Rewrites a h h') :
    stepProblems h' entry' = stepProblems h entry := by
  have judged := clear.judged rewrites
  cases expands with
  | same => exact judged.stepProblems
  | text id fresh made =>
    rw [← judged.stepProblems]
    cases id with
    | str id => simp only [Document.stepProblems, definition (h := h') made]
    | _ => rfl

theorem legible (expands : Expands h h' entry entry') (clear : Clear h a entry) (rewrites : Rewrites a h h')
    (legible : ∀ key ∈ definitionKeys h entry, Legible h key) : ∀ key ∈ definitionKeys h' entry', Legible h' key := by
  cases expands with
  | same => exact clear.legible rewrites legible
  | text id fresh made =>
    intro key member
    simp only [definitionKeys, members, Value.entries?, Heap.object_of_getElem? made] at member
    obtain rfl | member := List.mem_cons.mp member
    · exact rewrites.legible clear.key clear.apart (legible _ List.mem_cons_self)
    · obtain rfl := List.mem_singleton.mp member
      exact legible_text _ "handler"

theorem earlier {h₁ : Heap} (expands : Expands h₁ h' entry entry') (larger : h.objects.size ≤ h₁.objects.size) :
    Expands h h' entry entry' := by
  cases expands with
  | same => exact .same _
  | text id fresh made => exact .text id (Nat.le_trans larger fresh) made

/-- What has been written out stays so. -/
theorem later {h'' : Heap} (expands : Expands h h' entry entry') (there : a < h.objects.size) (rewrites : Rewrites a h' h'') :
    Expands h h'' entry entry' := by
  cases expands with
  | same => exact .same _
  | text id fresh made => exact .text id fresh (rewrites.others _ _ (Nat.ne_of_gt (Nat.lt_of_lt_of_le there fresh)) made)

end Expands

/-! How the mapping of the steps is written out. -/

/-- A step has a name, and its definition is a text. -/
def isText : Value × Value → Bool
  | (.str id, .str _) => !id.isEmpty
  | _ => false

section
variable {a : Addr} {h : Heap}

theorem expanded_kept {entry : Value × Value} (kept : isText entry = false) : expanded a h entry = h := by
  unfold expanded
  split
  · next id source =>
    have empty : id.isEmpty = true := by simpa [isText] using kept
    rw [if_pos empty]
  · rfl

theorem inserted_found {entries : Entries} (found : h.objects[a]? = some (.dict entries)) (key v : Value) :
    (inserted h a key v).objects[a]? = some (.dict (Entries.insert entries key v)) := by
  obtain ⟨there, -⟩ := Array.getElem?_eq_some_iff.mp found
  simp only [inserted, Heap.object_of_getElem? found]
  exact Array.getElem?_setIfInBounds_self_of_lt there

theorem insert_nonempty {entries : Entries} (nonempty : entries.isEmpty = false) (key v : Value) :
    (Entries.insert entries key v).isEmpty = false := by
  unfold Entries.insert
  split
  · simpa [Array.isEmpty, Array.size_modify] using nonempty
  · simp

theorem expanded_others {b : Addr} {o : Object} (other : b ≠ a) (found : h.objects[b]? = some o) (entry : Value × Value) :
    (expanded a h entry).objects[b]? = some o := by
  unfold expanded
  split
  · split
    · exact found
    · rw [inserted_other other]
      exact Heap.Extends.alloc h _ b o found
  · exact found

theorem expanded_rewrites (rewrites : Rewrites a h h) (entry : Value × Value) : Rewrites a h (expanded a h entry) := by
  obtain ⟨entries, _, found, -, nonempty, -⟩ := rewrites.mapping
  refine ⟨fun b o other found => expanded_others other found entry, entries, ?_⟩
  unfold expanded
  split
  · split
    · exact ⟨entries, found, found, nonempty, nonempty⟩
    · exact ⟨_, found, inserted_found (Heap.Extends.alloc h _ a _ found) _ _, nonempty, insert_nonempty nonempty _ _⟩
  · exact ⟨entries, found, found, nonempty, nonempty⟩

theorem expandAll_rewrites (rewrites : Rewrites a h h) (entries : List (Value × Value)) :
    Rewrites a h (entries.foldl (expanded a) h) := by
  induction entries generalizing h with
  | nil => exact rewrites
  | cons entry rest ih =>
    have first := expanded_rewrites rewrites entry
    exact first.trans (ih first.settled)

/-- Nothing is written where no definition is a text. -/
theorem expandAll_kept {entries : List (Value × Value)} (kept : ∀ entry ∈ entries, isText entry = false) :
    entries.foldl (expanded a) h = h := by
  induction entries with
  | nil => rfl
  | cons entry rest ih =>
    rw [List.foldl_cons, expanded_kept (kept entry List.mem_cons_self)]
    exact ih (fun entry member => kept entry (List.mem_cons_of_mem _ member))

/-- The value under a key that is there changes in its place. -/
theorem insert_between {before rest : List (Value × Value)} {key v w : Value}
    (new : ∀ entry ∈ before, entry.1.sameKey key = false) (same : key.sameKey key = true) :
    Entries.insert (before ++ (key, v) :: rest).toArray key w = (before ++ (key, w) :: rest).toArray := by
  have place : Entries.position? (before ++ (key, v) :: rest).toArray key = some before.length := by
    rw [Entries.position?, List.findIdx?_toArray, List.findIdx?_append, List.findIdx?_eq_none_iff.mpr new, List.findIdx?_cons,
      same]
    simp
  rw [Entries.insert, place]
  dsimp only
  rw [List.modify_toArray, List.modify_eq_take_cons_drop (by simp)]
  simp

theorem expandAll_others {b : Addr} {o : Object} (other : b ≠ a) (found : h.objects[b]? = some o)
    (entries : List (Value × Value)) : (entries.foldl (expanded a) h).objects[b]? = some o := by
  induction entries generalizing h with
  | nil => exact found
  | cons entry rest ih => exact ih (expanded_others other found entry)

/-- Entry by entry, the texts among the definitions are written out. -/
theorem expandAll (before : List (Value × Value)) {rest : List (Value × Value)}
    (found : h.objects[a]? = some (.dict (before ++ rest).toArray))
    (distinct : ((before ++ rest).map (·.1)).Pairwise (fun key other => key.sameKey other = false)) :
    ∃ rest', (rest.foldl (expanded a) h).objects[a]? = some (.dict (before ++ rest').toArray) ∧
      List.Forall₂ (Expands h (rest.foldl (expanded a) h)) rest rest' ∧ ∀ entry ∈ rest', isText entry = false := by
  induction rest generalizing h before with
  | nil => exact ⟨[], found, .nil, nofun⟩
  | cons entry rest ih =>
    rw [List.foldl_cons]
    cases kind : isText entry with
    | false =>
      rw [expanded_kept kind]
      rw [List.append_cons] at found distinct
      obtain ⟨rest', after, each, none⟩ := ih _ found distinct
      rw [← List.append_cons] at after
      exact ⟨entry :: rest', after, .cons (.same entry) each, List.forall_mem_cons.mpr ⟨kind, none⟩⟩
    | true =>
      obtain ⟨id, source, present, rfl⟩ : ∃ id source, id.isEmpty = false ∧ entry = (.str id, .str source) := by
        unfold isText at kind
        split at kind
        · exact ⟨_, _, by simpa using kind, rfl⟩
        · cases kind
      obtain ⟨there, -⟩ := Array.getElem?_eq_some_iff.mp found
      have made : (expanded a h (.str id, .str source)).objects[h.objects.size]? =
          some (.dict #[(.str "handler", .str source)]) := expanded_made there present
      have new : ∀ entry ∈ before, entry.1.sameKey (.str id) = false := by
        intro entry member
        rw [List.map_append] at distinct
        exact (List.pairwise_append.mp distinct).2.2 _ (List.mem_map_of_mem member) _ List.mem_cons_self
      have wrote : (expanded a h (.str id, .str source)).objects[a]? =
          some (.dict ((before ++ [(Value.str id, Value.ref h.objects.size)]) ++ rest).toArray) := by
        simp only [expanded, present, Bool.false_eq_true, if_false]
        rw [inserted_found (Heap.Extends.alloc h _ a _ found), insert_between new ((Value.sameKey_str _ _).mpr rfl),
          ← List.append_cons]
      have apart : (((before ++ [(Value.str id, Value.ref h.objects.size)]) ++ rest).map (·.1)).Pairwise
          (fun key other => key.sameKey other = false) := by simpa using distinct
      obtain ⟨rest', after, each, none⟩ := ih _ wrote apart
      obtain ⟨larger, -⟩ := Array.getElem?_eq_some_iff.mp made
      rw [← List.append_cons] at after
      refine ⟨(.str id, .ref h.objects.size) :: rest', after, .cons ?_ ?_, List.forall_mem_cons.mpr ⟨rfl, none⟩⟩
      · exact .text _ (Nat.le_refl _) (expandAll_others (Nat.ne_of_gt there) made rest)
      · exact each.imp (fun _ _ expands => expands.earlier (Nat.le_of_lt larger))

end

end Workflow.Document
