import Workflow.Proofs.Building

/-! What registration relies on. Once a document was accepted, whatever stands for a definition of a step in it is a text or a
mapping whose globals are a mapping, and whatever stands in front of ids is a text. This holds of every document that is
accepted, also where the mapping of the steps has another part in it. -/

namespace Workflow.Document
open Engine (Work)
open Script (Addr Entries Heap Object Value)

theorem find?_modify {p : α → Bool} {g : α → α} (kept : ∀ a, p (g a) = p a) (items : List α) (i : Nat) :
    (items.modify i g).find? p = items.find? p ∨ ∃ a, (items.modify i g).find? p = some (g a) := by
  induction items generalizing i with
  | nil => exact .inl (by simp)
  | cons a rest ih =>
    cases i with
    | zero =>
      rw [List.modify_zero_cons, List.find?_cons, List.find?_cons, kept]
      cases p a with
      | true => exact .inr ⟨a, rfl⟩
      | false => exact .inl rfl
    | succ i =>
      rw [List.modify_succ_cons, List.find?_cons, List.find?_cons]
      cases p a with
      | true => exact .inl rfl
      | false => exact ih i

/-- A name stands for what it stood for before, or for what was put in. -/
theorem named_insert (entries : Entries) (key v : Value) (name : String) :
    Entries.named? (Entries.insert entries key v) name = Entries.named? entries name ∨
      Entries.named? (Entries.insert entries key v) name = some v := by
  obtain ⟨entries⟩ := entries
  simp only [Entries.named?, Entries.get?, Entries.insert]
  split
  · next i _ =>
    simp only [List.modify_toArray, List.find?_toArray]
    obtain same | ⟨entry, found⟩ := find?_modify (p := fun entry => entry.1.sameKey (.str name)) (g := fun entry => (entry.1, v))
      (fun _ => rfl) entries i
    · exact .inl (by rw [same])
    · exact .inr (by rw [found]; rfl)
  · simp only [List.push_toArray, List.find?_toArray, List.find?_append]
    cases entries.find? (fun entry => entry.1.sameKey (.str name)) with
    | some entry => exact .inl rfl
    | none =>
      rw [Option.none_or, List.find?_singleton]
      split
      · exact .inr rfl
      · exact .inl rfl

theorem mem_insert {entries : Entries} {key v : Value} {entry : Value × Value}
    (member : entry ∈ (Entries.insert entries key v).toList) : (∃ e ∈ entries.toList, e.2 = entry.2) ∨ entry.2 = v := by
  unfold Entries.insert at member
  split at member
  · obtain ⟨k, found⟩ := Array.mem_iff_getElem?.mp (Array.mem_toList_iff.mp member)
    rw [Array.getElem?_modify] at found
    split at found
    · obtain ⟨e, -, rfl⟩ := Option.map_eq_some_iff.mp found
      exact .inr rfl
    · exact .inl ⟨entry, Array.mem_toList_iff.mpr (Array.mem_of_getElem? found), rfl⟩
  · obtain member | rfl := Array.mem_push.mp (Array.mem_toList_iff.mp member)
    · exact .inl ⟨entry, Array.mem_toList_iff.mpr member, rfl⟩
    · exact .inr rfl

/-! How the definitions of a document are amended. -/

/-- A definition that was written out for a text, beside the mapping of the steps. -/
def WrittenFor (k : Heap) (a : Addr) (v : Value) : Prop :=
  ∃ c source, v = .ref c ∧ c ≠ a ∧ k.objects[c]? = some (.dict #[(.str "handler", .str source)])

/-- Nothing is changed but a mapping, and in it nothing but definitions that are written out. -/
structure Amends (a : Addr) (h k : Heap) : Prop where
  others : ∀ b o, b ≠ a → h.objects[b]? = some o → k.objects[b]? = some o
  mapping : ∃ entries entries', h.objects[a]? = some (.dict entries) ∧ k.objects[a]? = some (.dict entries') ∧
    (∀ entry ∈ entries'.toList, (∃ e ∈ entries.toList, e.2 = entry.2) ∨ WrittenFor k a entry.2) ∧
    ∀ name, Entries.named? entries' name = Entries.named? entries name ∨
      ∃ v, Entries.named? entries' name = some v ∧ WrittenFor k a v

namespace Amends
variable {a : Addr} {h k l : Heap} {v : Value}

theorem refl {entries : Entries} (found : h.objects[a]? = some (.dict entries)) : Amends a h h :=
  ⟨fun _ _ _ here => here, entries, entries, found, found, fun entry member => .inl ⟨entry, member, rfl⟩, fun _ => .inl rfl⟩

theorem later (amends : Amends a k l) (written : WrittenFor k a v) : WrittenFor l a v := by
  obtain ⟨c, source, rfl, apart, made⟩ := written
  exact ⟨c, source, rfl, apart, amends.others c _ apart made⟩

theorem trans (first : Amends a h k) (second : Amends a k l) : Amends a h l := by
  obtain ⟨entries, entries₁, found, found₁, row, named⟩ := first.mapping
  obtain ⟨_, entries₂, again, found₂, row₂, named₂⟩ := second.mapping
  obtain rfl : entries₁ = _ := by simpa [found₁] using again
  refine ⟨fun b o other here => second.others b o other (first.others b o other here), entries, entries₂, found, found₂, ?_, ?_⟩
  · intro entry member
    obtain ⟨e, there, same⟩ | written := row₂ entry member
    · obtain ⟨e', there', same'⟩ | written := row e there
      · exact .inl ⟨e', there', same'.trans same⟩
      · rw [← same]
        exact .inr (second.later written)
    · exact .inr written
  · intro name
    obtain same | written := named₂ name
    · rw [same]
      exact (named name).imp_right (fun ⟨v, found, written⟩ => ⟨v, found, second.later written⟩)
    · exact .inr written

theorem expanded {entries : Entries} (found : h.objects[a]? = some (.dict entries)) (entry : Value × Value) :
    Amends a h (expanded a h entry) := by
  cases kind : isText entry with
  | false =>
    rw [expanded_kept kind]
    exact .refl found
  | true =>
    obtain ⟨inside, -⟩ := Array.getElem?_eq_some_iff.mp found
    unfold isText at kind
    split at kind
    · next id source =>
      have present : id.isEmpty = false := by simpa using kind
      have made : WrittenFor (Document.expanded a h (.str id, .str source)) a (.ref h.objects.size) :=
        ⟨_, source, rfl, Nat.ne_of_gt inside, expanded_made inside present⟩
      have wrote : (Document.expanded a h (.str id, .str source)).objects[a]? =
          some (.dict (Entries.insert entries (.str id) (.ref h.objects.size))) := by
        simp only [Document.expanded, present, Bool.false_eq_true, if_false]
        exact inserted_found (Heap.Extends.alloc h _ a _ found) _ _
      refine ⟨fun b o other here => expanded_others other here _, entries, _, found, wrote, fun entry member => ?_,
        fun name => ?_⟩
      · refine (mem_insert member).imp_right (fun same => ?_)
        rw [same]
        exact made
      · exact (named_insert entries (.str id) (.ref h.objects.size) name).imp_right (fun found => ⟨_, found, made⟩)
    · cases kind

theorem expandAll {entries : Entries} (found : h.objects[a]? = some (.dict entries)) (row : List (Value × Value)) :
    Amends a h (row.foldl (Document.expanded a) h) := by
  induction row generalizing h entries with
  | nil => exact .refl found
  | cons entry rest ih =>
    have first := expanded found entry
    obtain ⟨_, entries', -, found', -⟩ := first.mapping
    exact first.trans (ih found')

variable (amends : Amends a h k)
include amends

/-- What is a mapping stays one. -/
theorem isMapping (made : (v.entries? h).isSome) : (v.entries? k).isSome := by
  obtain ⟨inner, made⟩ := Option.isSome_iff_exists.mp made
  obtain ⟨b, rfl, found⟩ := dict_of_entries made
  obtain ⟨entries, entries', -, found', -⟩ := amends.mapping
  by_cases same : b = a
  · subst same
    simp only [Value.entries?, Heap.object_of_getElem? found', Option.isSome_some]
  · simp only [Value.entries?, Heap.object_of_getElem? (amends.others b _ same found), Option.isSome_some]

end Amends

/-! Definitions. -/

/-- A mapping whose globals are a mapping, if it has some. -/
def Mapped (h : Heap) (config : Value) : Prop :=
  ∃ inner, config.entries? h = some inner ∧ ∀ globals, Entries.named? inner "globals" = some globals → (globals.entries? h).isSome

/-- What may stand for a definition of a step. -/
def Defines (h : Heap) (config : Value) : Prop := (∃ source, config = .str source) ∨ Mapped h config

/-- What stands in front of the ids of the steps of a schema is a text, if anything does. -/
def Spaced (h : Heap) (config : Value) : Prop := ∀ inner, config.entries? h = some inner → isSpace (valueOf inner "prefix") = true

theorem WrittenFor.mapped {k : Heap} {a : Addr} {v : Value} (written : WrittenFor k a v) : Mapped k v := by
  obtain ⟨c, source, rfl, -, made⟩ := written
  refine ⟨_, by simp only [Value.entries?, Heap.object_of_getElem? made]; rfl, fun globals found => ?_⟩
  have none : Entries.named? #[(.str "handler", .str source)] "globals" = none := rfl
  rw [none] at found
  cases found

theorem Mapped.amended {a : Addr} {h k : Heap} {v : Value} (mapped : Mapped h v) (amends : Amends a h k) : Mapped k v := by
  obtain ⟨inner, made, globals⟩ := mapped
  obtain ⟨b, rfl, found⟩ := dict_of_entries made
  by_cases same : b = a
  · subst same
    obtain ⟨entries, entries', before, after, -, named⟩ := amends.mapping
    obtain rfl : entries = inner := by simpa [before] using found
    refine ⟨entries', by simp only [Value.entries?, Heap.object_of_getElem? after], fun v there => ?_⟩
    obtain same | ⟨v', found', written⟩ := named "globals"
    · exact amends.isMapping (globals v (same ▸ there))
    · cases found'.symm.trans there
      obtain ⟨inner, made, -⟩ := written.mapped
      rw [made]
      rfl
  · refine ⟨inner, by simp only [Value.entries?, Heap.object_of_getElem? (amends.others b _ same found)], fun v there => ?_⟩
    exact amends.isMapping (globals v there)

theorem Defines.amended {a : Addr} {h k : Heap} {v : Value} (defines : Defines h v) (amends : Amends a h k) : Defines k v :=
  defines.imp_right (fun mapped => mapped.amended amends)

theorem StepInOrder.defines {h : Heap} {entry : Value × Value} (ordered : StepInOrder h entry) : Defines h entry.2 := by
  obtain ⟨id, inner, source, -, -, made, -, mapped⟩ := ordered
  by_cases text : ∃ source, entry.2 = .str source
  · exact .inl text
  · rw [definition?_other (fun source same => text ⟨source, same⟩)] at made
    exact .inr ⟨inner, made, mapped⟩

theorem SchemaInOrder.spaced {h : Heap} {entry : Value × Value} (ordered : SchemaInOrder h entry) : Spaced h entry.2 := by
  intro inner made
  obtain ⟨-, listed | ⟨config, made', -, spaced⟩⟩ := ordered
  · obtain ⟨b, same, found⟩ := dict_of_entries made
    rw [same] at listed
    simp only [Value.listItems?, Heap.object_of_getElem? found] at listed
    cases listed
  · cases made.symm.trans made'
    exact spaced

/-! Documents. -/

/-- The steps and schemas of a document are defined in a way in which they can be registered. -/
structure Registrable (h : Heap) (document : Value) : Prop where
  steps : ∀ entries steps, document.entries? h = some entries → (valueOf entries "steps").entries? h = some steps →
    ∀ entry ∈ steps.toList, Defines h entry.2
  schemas : ∀ entries schemas, document.entries? h = some entries → (valueOf entries "schemas").entries? h = some schemas →
    ∀ entry ∈ schemas.toList, Spaced h entry.2

section
variable {a d : Addr} {h : Heap} {entries steps : Entries}

theorem checkSteps_defined {row : List (Value × Value)} (found : h.objects[a]? = some (.dict steps)) :
    Clears (row.forM fun entry => checkStep a entry.1 entry.2) h
      (∀ entry ∈ row, Defines (row.foldl (expanded a) h) entry.2) (row.foldl (expanded a) h) := by
  induction row generalizing h steps with
  | nil => exact Clears.nothing.mono (fun _ => List.forall_mem_nil _)
  | cons entry rest ih =>
    obtain ⟨inside, -⟩ := Array.getElem?_eq_some_iff.mp found
    have amends := Amends.expanded found entry
    obtain ⟨_, steps', -, found', -⟩ := amends.mapping
    refine (Clears.bind (Adds.checking.forM (fun _ => Adds.checking.checkStep _ _ _) rest) (Clears.checkStep inside)
      (ih found')).mono (fun ⟨ordered, others⟩ => List.forall_mem_cons.mpr ⟨?_, others⟩)
    exact ordered.defines.amended (amends.trans (.expandAll found' rest))

/-- What is known of the mapping of the steps when the definitions in it have been checked. -/
theorem steps_defined (at_ : StepsAt h entries a steps) {k : Heap} (amends : Amends a h k)
    (defined : ∀ entry ∈ steps.toList, Defines k entry.2) (document : h.objects[d]? = some (.dict entries)) :
    ∀ entries' steps', (Value.ref d).entries? k = some entries' → (valueOf entries' "steps").entries? k = some steps' →
      ∀ entry ∈ steps'.toList, Defines k entry.2 := by
  intro entries' steps' made opened entry member
  obtain ⟨before, after, found, found', row, named⟩ := amends.mapping
  obtain rfl : before = steps := by simpa [at_.found] using found.symm
  have inside : valueOf entries' "steps" = .ref a → Defines k entry.2 := by
    intro here
    rw [here] at opened
    simp only [Value.entries?, Heap.object_of_getElem? found', Option.some.injEq] at opened
    subst opened
    obtain ⟨e, there, same⟩ | written := row entry member
    · exact same ▸ defined e there
    · exact .inr written.mapped
  by_cases apart : d = a
  · -- The document is the mapping of its steps, and its steps may have been written out as a definition.
    subst apart
    obtain rfl : entries = before := by simpa [document] using at_.found
    simp only [Value.entries?, Heap.object_of_getElem? found', Option.some.injEq] at made
    subst made
    obtain same | ⟨v, here, c, source, rfl, -, written⟩ := named "steps"
    · refine inside ?_
      rw [valueOf, same]
      exact at_.named
    · rw [valueOf, here, Option.getD_some] at opened
      simp only [Value.entries?, Heap.object_of_getElem? written, Option.some.injEq] at opened
      subst opened
      obtain rfl := List.mem_singleton.mp member
      exact .inl ⟨source, rfl⟩
  · simp only [Value.entries?, Heap.object_of_getElem? (amends.others d _ apart document), Option.some.injEq] at made
    subst made
    exact inside at_.named

theorem checkSchemas_spaced (v : Value) :
    Clears (checkSchemas v) h (∀ schemas, v.entries? h = some schemas → ∀ entry ∈ schemas.toList, Spaced h entry.2) h := by
  refine .entries ?_
  cases made : v.entries? h with
  | none => exact .report _ _
  | some schemas =>
    have all : Clears (schemas.toList.forM fun entry => checkSchema entry.1 entry.2) h
        (∀ entry ∈ schemas.toList, Spaced h entry.2) (schemas.toList.foldl (fun k _ => k) h) :=
      .forM (S := fun k => k = h) (fun _ => Adds.checking.checkSchema _ _)
        (fun _ _ k same => by subst same; exact Clears.checkSchema.mono (fun ordered => ordered.spaced))
        (fun _ _ _ same => same) rfl
    rw [List.foldl_fixed] at all
    refine all.mono (fun spaced schemas' same => ?_)
    cases same
    exact spaced

end

/-- A document that was accepted can be registered. -/
theorem validate_registrable {document : Value} {w w' : World} (ran : validate document w = .ok () w') :
    Registrable w'.heap document := by
  obtain ⟨checked, none⟩ := validate_ok ran
  cases made : document.entries? w.heap with
  | none =>
    have refused : Clears (checks document) w.heap False w.heap := by
      refine .entries ?_
      rw [made]
      exact .report _ _
    exact (refused w w' rfl checked none).1.elim
  | some entries =>
    obtain ⟨d, rfl, found⟩ := dict_of_entries made
    cases opened : (valueOf entries "steps").entries? w.heap with
    | none => exact (checks_stepless made opened w w' rfl checked none).1.elim
    | some steps =>
      obtain ⟨a, named, there⟩ := dict_of_entries opened
      have amends := Amends.expandAll there steps.toList
      have defined : Clears (checkSection "steps" checkSteps (valueOf entries "steps")) w.heap
          (∀ entry ∈ steps.toList, Defines (steps.toList.foldl (expanded a) w.heap) entry.2)
          (steps.toList.foldl (expanded a) w.heap) := by
        rw [named] at opened ⊢
        refine .checkSection (.entries ?_)
        rw [opened]
        exact checkSteps_defined there
      generalize steps.toList.foldl (expanded a) w.heap = k at amends defined
      have document : ∃ entries', k.objects[d]? = some (.dict entries') := by
        by_cases same : d = a
        · obtain ⟨_, entries', -, found', -⟩ := amends.mapping
          exact ⟨entries', same ▸ found'⟩
        · exact ⟨entries, amends.others d _ same found⟩
      obtain ⟨entries', found'⟩ := document
      have made' : (Value.ref d).entries? k = some entries' := by
        simp only [Value.entries?, Heap.object_of_getElem? found']
      have looked (w : World) (here : w.heap = k) :
          optionalPart (.ref d) "schemas" w = .ok (valueOf entries' "schemas") { w with heap := k } := by
        subst here
        exact optionalPart_eq made' "schemas"
      have spaced : Clears (do checkSection "schemas" checkSchemas (← optionalPart (.ref d) "schemas")) k
          (∀ schemas, (valueOf entries' "schemas").entries? k = some schemas → ∀ entry ∈ schemas.toList, Spaced k entry.2) k :=
        .after looked (.checkSection (checkSchemas_spaced _))
      obtain ⟨⟨defined, spaced⟩, rfl⟩ := checks_rest made (defined.bind schemas_adds spaced) w w' rfl checked none
      refine ⟨steps_defined ⟨named, there⟩ amends defined found, fun other schemas same => ?_⟩
      cases made'.symm.trans same
      exact spaced schemas

end Workflow.Document
