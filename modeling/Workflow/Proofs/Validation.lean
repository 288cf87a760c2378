import Workflow.Proofs.Expansion
import Workflow.Proofs.Verdicts

/-! What a validation comes to. The definitions of steps that are texts are written out in their document while it is checked,
so what is found later must not depend on the mapping of the steps. If it does not, all problems of a document are listed, each
of them once and in the order of the document, and a document that has none is accepted. -/

namespace Workflow.Document
open Engine (Work answered)
open Script (Addr Entries Heap Object Value)

/-! Rows of entries that go together. -/

theorem exists_of_forall₂ {R : α → β → Prop} {row : List α} {row' : List β} (each : List.Forall₂ R row row') :
    ∀ b ∈ row', ∃ a ∈ row, R a b := by
  induction each with
  | nil => exact nofun
  | @cons a b row row' first rest ih =>
    intro c member
    obtain rfl | member := List.mem_cons.mp member
    · exact ⟨a, List.mem_cons_self, first⟩
    · obtain ⟨a', there, related⟩ := ih c member
      exact ⟨a', List.mem_cons_of_mem a there, related⟩

theorem flatMap_forall₂ {R : α → β → Prop} {f : α → List γ} {g : β → List γ} {row : List α} {row' : List β}
    (each : List.Forall₂ R row row') (same : ∀ a ∈ row, ∀ b, R a b → g b = f a) : row'.flatMap g = row.flatMap f := by
  induction each with
  | nil => rfl
  | @cons a b row row' first rest ih =>
    rw [List.flatMap_cons, List.flatMap_cons, same a List.mem_cons_self b first,
      ih (fun a member => same a (List.mem_cons_of_mem _ member))]

/-! Documents. -/

/-- A value that does not count as true has no entries. -/
theorem members_of_false {h : Heap} {v : Value} (false : v.truth h = false) : members h v = [] := by
  cases v with
  | ref b =>
    simp only [Value.truth] at false
    simp only [members, Value.entries?]
    split at false
    · simp_all [Array.isEmpty]
    all_goals simp_all
  | _ => rfl

/-- The mapping of the steps of a document. -/
structure StepsAt (h : Heap) (entries : Entries) (a : Addr) (steps : Entries) : Prop where
  named : valueOf entries "steps" = .ref a
  found : h.objects[a]? = some (.dict steps)

namespace StepsAt
variable {h : Heap} {entries steps steps' : Entries} {a b : Addr}

theorem unique (lies : StepsAt h entries a steps) (other : StepsAt h entries b steps') : a = b ∧ steps = steps' := by
  obtain rfl : a = b := Value.ref.inj (lies.named.symm.trans other.named)
  exact ⟨rfl, by simpa [lies.found] using other.found⟩

theorem made (lies : StepsAt h entries a steps) : (valueOf entries "steps").entries? h = some steps := by
  simp only [lies.named, Value.entries?, Heap.object_of_getElem? lies.found]

theorem members (lies : StepsAt h entries a steps) : members h (valueOf entries "steps") = steps.toList := by
  rw [Document.members, lies.made]
  rfl

theorem problems (lies : StepsAt h entries a steps) (filled : steps.isEmpty = false) :
    stepsProblems h (valueOf entries "steps") = steps.toList.flatMap (stepProblems h) := by
  have given : (valueOf entries "steps").truth h = true := by
    simp only [lies.named, Value.truth, Heap.object_of_getElem? lies.found, filled]
    rfl
  simp only [stepsProblems, sectionProblems, given, lies.made, if_true]

theorem keys (lies : StepsAt h entries a steps) {entry : Value × Value} {key : Value} (member : entry ∈ steps.toList)
    (inside : key ∈ definitionKeys h entry) : key ∈ keys h entries := by
  rw [← lies.members] at member
  exact List.mem_append_left _ (List.mem_append_right _ (List.mem_flatMap.mpr ⟨entry, member, inside⟩))

/-- The mapping of the steps, if there is one. -/
theorem located (inside : Inside h (valueOf entries "steps")) (made : (valueOf entries "steps").entries? h = some steps) :
    ∃ a, StepsAt h entries a steps := by
  cases named : valueOf entries "steps" with
  | ref a =>
    rw [named] at made inside
    have found := Array.getElem?_eq_getElem (inside a (.here (List.mem_singleton.mpr rfl)))
    simp only [Value.entries?, Heap.object_of_getElem? found] at made
    refine ⟨a, named, found.trans ?_⟩
    split at made
    · next same => rw [same, Option.some.inj made]
    · cases made
  | _ =>
    rw [named] at made
    cases made

end StepsAt

/-- A document lies in a heap: all of it is there, a step has one definition, and the keys that the document is judged by can be
written. -/
structure Laid (h : Heap) (d : Addr) (entries : Entries) : Prop where
  found : h.objects[d]? = some (.dict entries)
  inside : Inside h (.ref d)
  distinct : ∀ a steps, StepsAt h entries a steps → steps.Distinct
  legible : ∀ key ∈ keys h entries, Legible h key

/-- The mapping of the steps is not looked at as another part of its document. -/
structure Untangled (h : Heap) (d a : Addr) (entries steps : Entries) : Prop where
  document : d ≠ a
  schemas : valueOf entries "schemas" ≠ .ref a
  definitions : ∀ entry ∈ steps.toList ++ members h (valueOf entries "schemas"), entry.2 ≠ .ref a
  keys : ∀ key ∈ keys h entries, ¬ h.Reaches key a

namespace Laid
variable {h : Heap} {d : Addr} {entries : Entries}

theorem made (laid : Laid h d entries) : (Value.ref d).entries? h = some entries := by
  simp only [Value.entries?, Heap.object_of_getElem? laid.found]

theorem part (laid : Laid h d entries) (name : String) : Inside h (valueOf entries name) := laid.inside.valueOf laid.made name

theorem keys_fields {entry : Value × Value} (member : entry ∈ entries.toList) : entry.1 ∈ keys h entries :=
  List.mem_append_left _ (List.mem_append_left _ (List.mem_map_of_mem member))

theorem keys_schemas {entry : Value × Value} {key : Value} (member : entry ∈ members h (valueOf entries "schemas"))
    (inside : key ∈ definitionKeys h entry) : key ∈ keys h entries :=
  List.mem_append_right _ (List.mem_flatMap.mpr ⟨entry, member, inside⟩)

theorem members_inside (laid : Laid h d entries) {name : String} {entry : Value × Value}
    (member : entry ∈ members h (valueOf entries name)) : Inside h entry.1 ∧ Inside h entry.2 := by
  obtain ⟨inner, made, member⟩ := mem_members.mp member
  exact (laid.part name).parts made entry member

variable {a : Addr} {steps : Entries}

theorem step_clear (laid : Laid h d entries) (lies : StepsAt h entries a steps) (untangled : Untangled h d a entries steps) :
    ∀ entry ∈ steps.toList, Clear h a entry := by
  intro entry member
  obtain ⟨key, definition⟩ := (laid.part "steps").parts lies.made entry member
  exact ⟨key, definition, untangled.definitions entry (List.mem_append_left _ member),
    fun key here => untangled.keys key (lies.keys member here)⟩

theorem schema_clear (laid : Laid h d entries) (untangled : Untangled h d a entries steps) :
    ∀ entry ∈ members h (valueOf entries "schemas"), Clear h a entry := by
  intro entry member
  obtain ⟨key, definition⟩ := laid.members_inside member
  exact ⟨key, definition, untangled.definitions entry (List.mem_append_right _ member),
    fun key here => untangled.keys key (keys_schemas member here)⟩

/-- The document itself is not written to. -/
theorem still {k : Heap} (laid : Laid h d entries) (untangled : Untangled h d a entries steps) (rewrites : Rewrites a h k) :
    (Value.ref d).entries? k = some entries := by
  rw [rewrites.entries laid.inside (fun same => untangled.document (Value.ref.inj same)), laid.made]

end Laid

section
variable {g h : Heap} {d a : Addr} {entries steps : Entries} {steps' : List (Value × Value)}

/-- The section of the steps, some of which have been written out. -/
theorem checkSteps_finds {steps : List (Value × Value)} (clear : ∀ entry ∈ steps, Clear g a entry)
    (legible : ∀ entry ∈ steps, ∀ key ∈ definitionKeys g entry, Legible g key) (rewrites : Rewrites a g h)
    (found : h.objects[a]? = some (.dict steps'.toArray)) (nonempty : steps'.toArray.isEmpty = false)
    (each : List.Forall₂ (Expands g h) steps steps') :
    Finds (checkSteps (.ref a)) h (steps.flatMap (stepProblems g)) (steps.flatMap (stepSources g))
      (steps'.foldl (expanded a) h) := by
  have problems : ∀ entry ∈ steps, ∀ entry', Expands g h entry entry' → stepProblems h entry' = stepProblems g entry :=
    fun entry member entry' expands => expands.stepProblems (clear entry member) rewrites
  have sources : ∀ entry ∈ steps, ∀ entry', Expands g h entry entry' → stepSources h entry' = stepSources g entry :=
    fun entry member entry' expands => expands.stepSources (clear entry member) rewrites
  -- By the time an entry is checked, the entries before it may have been written out.
  have finds : ∀ entry' ∈ steps', ∀ k, Rewrites a h k →
      Finds (checkStep a entry'.1 entry'.2) k (stepProblems h entry') (stepSources h entry') (expanded a k entry') := by
    intro entry' member k more
    obtain ⟨entry, inside, expands⟩ := exists_of_forall₂ each entry' member
    have clear := clear entry inside
    have later := expands.later rewrites.inside more
    have all := rewrites.trans more
    rw [problems entry inside entry' expands, sources entry inside entry' expands, ← later.stepProblems clear all,
      ← later.stepSources clear all]
    exact Finds.checkStep more.settled.inside (later.legible clear all (legible entry inside))
  refine Finds.entries ?_
  have made : (Value.ref a).entries? h = some steps'.toArray := by
    simp only [Value.entries?, Heap.object_of_getElem? found]
  rw [made, ← flatMap_forall₂ each problems, ← flatMap_forall₂ each sources]
  have keeps : ∀ entry' ∈ steps', ∀ k, Rewrites a h k → Rewrites a h (expanded a k entry') :=
    fun entry' _ k more => more.trans (expanded_rewrites more.settled entry')
  exact Finds.forM (S := Rewrites a h) finds keeps (.refl found nonempty)

/-- The schemas are judged as they were, whatever has become of the steps. -/
theorem checkSchemas_finds (laid : Laid g d entries) (untangled : Untangled g d a entries steps) (rewrites : Rewrites a g h) :
    Finds (checkSection "schemas" checkSchemas (valueOf entries "schemas")) h (schemasProblems g (valueOf entries "schemas"))
      [] h := by
  have inside := laid.part "schemas"
  have clear := laid.schema_clear untangled
  have same : members h (valueOf entries "schemas") = members g (valueOf entries "schemas") := by
    simp only [members, rewrites.entries inside untangled.schemas]
  have problems : schemasProblems h (valueOf entries "schemas") = schemasProblems g (valueOf entries "schemas") := by
    unfold schemasProblems sectionProblems
    rw [rewrites.truth inside, rewrites.entries inside untangled.schemas]
    cases made : (valueOf entries "schemas").entries? g with
    | none => rfl
    | some inner =>
      have each : inner.toList.flatMap (schemaProblems h) = inner.toList.flatMap (schemaProblems g) :=
        List.flatMap_congr (fun entry member =>
          ((clear entry (mem_members.mpr ⟨inner, made, member⟩)).judged rewrites).schemaProblems)
      simp only [each]
  rw [← problems]
  refine Finds.checkSchemas (fun key member => ?_)
  rw [same] at member
  obtain ⟨entry, there, here⟩ := List.mem_flatMap.mp member
  exact (clear entry there).legible rewrites (fun key here => laid.legible key (Laid.keys_schemas there here)) key here

/-- The checks of a document, one after the other. -/
theorem checks_finds {k : Heap} {found more : List Problem} {sources : List String}
    (made : (Value.ref d).entries? h = some entries) (legible : ∀ entry ∈ entries.toList, Legible h entry.1)
    (steps : Finds (checkSection "steps" checkSteps (valueOf entries "steps")) h found sources k)
    (later : (Value.ref d).entries? k = some entries)
    (schemas : Finds (checkSection "schemas" checkSchemas (valueOf entries "schemas")) k more [] k) :
    Finds (checks (.ref d)) h (versionProblems h (valueOf entries "version") ++
      fieldProblems h fields "Unknown field" "" entries.toList ++ found ++ more) sources k := by
  have behind : Finds (do checkSection "schemas" checkSchemas (← optionalPart (.ref d) "schemas")) k more [] k := by
    refine Finds.after (fun w here => ?_) schemas
    subst here
    simp only [optionalPart, entries?, Bind.bind, EStateM.bind, Script.get_result]
    rw [later]
    rfl
  refine Finds.entries ?_
  rw [made, List.append_assoc, List.append_assoc, ← List.append_nil sources]
  exact (Finds.checkVersion _).bind ((Finds.checkFields legible).bind (steps.bind behind))

/-- A document whose steps have been written out, or some of them, has the problems that it had before. -/
theorem rewritten_finds (laid : Laid g d entries) (lies : StepsAt g entries a steps) (untangled : Untangled g d a entries steps)
    (rewrites : Rewrites a g h) (found : h.objects[a]? = some (.dict steps'.toArray)) (nonempty : steps'.toArray.isEmpty = false)
    (each : List.Forall₂ (Expands g h) steps.toList steps') :
    Finds (checks (.ref d)) h (problems g entries) (sources g entries) (steps'.foldl (expanded a) h) := by
  have all : Rewrites a g (steps'.foldl (expanded a) h) := rewrites.trans (expandAll_rewrites (.refl found nonempty) steps')
  have given : (Value.ref a).truth h = true := by
    simp only [Value.truth, Heap.object_of_getElem? found, nonempty]
    rfl
  have filled : steps.isEmpty = false := by
    obtain ⟨_, _, before, -, filled, -⟩ := rewrites.mapping
    cases lies.found.symm.trans before
    exact filled
  have stepsFinds : Finds (checkSection "steps" checkSteps (valueOf entries "steps")) h
      (stepsProblems g (valueOf entries "steps")) (sources g entries) (steps'.foldl (expanded a) h) := by
    rw [lies.problems filled, sources, lies.members, lies.named]
    have legible : ∀ entry ∈ steps.toList, ∀ key ∈ definitionKeys g entry, Legible g key :=
      fun entry member key here => laid.legible key (lies.keys member here)
    exact Finds.present given (checkSteps_finds (laid.step_clear lies untangled) legible rewrites found nonempty each)
  have fields : ∀ entry ∈ entries.toList, Inside g entry.1 ∧ ¬ g.Reaches entry.1 a := fun entry member =>
    ⟨(laid.inside.parts laid.made entry member).1, untangled.keys entry.1 (Laid.keys_fields member)⟩
  have unknown : fieldProblems h Document.fields "Unknown field" "" entries.toList =
      fieldProblems g Document.fields "Unknown field" "" entries.toList :=
    fieldProblems_congr (fun entry member => rewrites.shown (fields entry member).1 (fields entry member).2)
  rw [problems, ← rewrites.versionProblems (laid.part "version"), ← unknown]
  refine checks_finds (laid.still untangled rewrites) (fun entry member => ?_) stepsFinds (laid.still untangled all)
    (checkSchemas_finds laid untangled all)
  obtain ⟨inside, apart⟩ := fields entry member
  exact rewrites.legible inside apart (laid.legible entry.1 (Laid.keys_fields member))

/-- If no step is a text, nothing is written. -/
theorem plain_finds (laid : Laid g d entries)
    (plain : ∀ a steps, StepsAt g entries a steps → ∀ entry ∈ steps.toList, isText entry = false) :
    Finds (checks (.ref d)) g (problems g entries) (sources g entries) g := by
  refine checks_finds laid.made (fun entry member => laid.legible entry.1 (Laid.keys_fields member)) ?_ laid.made ?_
  · unfold stepsProblems sectionProblems
    cases given : (valueOf entries "steps").truth g with
    | false =>
      rw [sources, members_of_false given]
      exact Finds.missing given
    | true =>
      refine Finds.present given (Finds.entries ?_)
      simp only [if_true, sources, members]
      cases made : (valueOf entries "steps").entries? g with
      | none =>
        cases valueOf entries "steps" <;> exact Finds.report _ _
      | some steps =>
        obtain ⟨a, named, found⟩ := StepsAt.located (laid.part "steps") made
        obtain ⟨there, -⟩ := Array.getElem?_eq_some_iff.mp found
        rw [named]
        refine Finds.forM_same (fun entry member => ?_)
        have written : ∀ key ∈ definitionKeys g entry, Legible g key :=
          fun key here => laid.legible key (StepsAt.keys ⟨named, found⟩ member here)
        have finds := Finds.checkStep there written
        rw [expanded_kept (plain a steps ⟨named, found⟩ entry member)] at finds
        exact finds
  · exact Finds.checkSchemas (fun key member => laid.legible key (List.mem_append_right _ member))

end

/-- From one heap to another, the definitions of steps that were texts have been written out, and nothing else has changed. -/
structure WrittenOut (a : Addr) (steps : Entries) (h h' : Heap) : Prop where
  others : ∀ b o, b ≠ a → h.objects[b]? = some o → h'.objects[b]? = some o
  mapping : ∃ steps', h'.objects[a]? = some (.dict steps'.toArray) ∧ List.Forall₂ (Expands h h') steps.toList steps' ∧
    ∀ entry ∈ steps', isText entry = false

section
variable {h : Heap} {d : Addr} {entries : Entries}

theorem written_out {a : Addr} {steps : Entries} (found : h.objects[a]? = some (.dict steps)) (distinct : steps.Distinct) :
    WrittenOut a steps h (steps.toList.foldl (expanded a) h) := by
  have each := expandAll [] found (List.pairwise_map.mpr distinct)
  exact ⟨fun _ _ other there => expandAll_others other there _, each⟩

/-- The mapping of the steps is not looked at as another part of its document if a definition in it is to be written out. -/
def Apart (h : Heap) (d : Addr) (entries : Entries) : Prop :=
  ∀ a steps, StepsAt h entries a steps → (∃ entry ∈ steps.toList, isText entry = true) → Untangled h d a entries steps

/-- The checks of a document find its problems, and find them again when they are done once more. -/
theorem checks_find (laid : Laid h d entries) (apart : Apart h d entries) :
    ∃ h', Finds (checks (.ref d)) h (problems h entries) (sources h entries) h' ∧
      Finds (checks (.ref d)) h' (problems h entries) (sources h entries) h' ∧
      ∀ a steps, StepsAt h entries a steps → WrittenOut a steps h h' := by
  by_cases texts : ∃ a steps, StepsAt h entries a steps ∧ ∃ entry ∈ steps.toList, isText entry = true
  · obtain ⟨a, steps, lies, text⟩ := texts
    have untangled := apart a steps lies text
    have nonempty : steps.isEmpty = false := by
      obtain ⟨entry, member, -⟩ := text
      cases empty : steps.isEmpty with
      | false => rfl
      | true =>
        rw [Array.isEmpty_iff.mp empty] at member
        cases member
    have start : Rewrites a h h := .refl lies.found nonempty
    have all := expandAll_rewrites start steps.toList
    have written := written_out lies.found (laid.distinct a steps lies)
    obtain ⟨steps', found, each, none⟩ := written.mapping
    have filled : steps'.toArray.isEmpty = false := by
      obtain ⟨_, _, -, after, -, filled⟩ := all.mapping
      rw [found] at after
      cases after
      exact filled
    refine ⟨steps.toList.foldl (expanded a) h, ?_, ?_, ?_⟩
    · exact rewritten_finds laid lies untangled start lies.found nonempty (List.forall₂_same.mpr (fun entry _ => .same entry))
    · -- No text is left, so nothing is written this time.
      have again := rewritten_finds laid lies untangled all found filled each
      rw [expandAll_kept none] at again
      exact again
    · intro b steps₂ other
      obtain ⟨rfl, rfl⟩ := lies.unique other
      exact written
  · have plain : ∀ a steps, StepsAt h entries a steps → ∀ entry ∈ steps.toList, isText entry = false :=
      fun a steps lies entry member => Bool.eq_false_iff.mpr (fun text => texts ⟨a, steps, lies, entry, member, text⟩)
    refine ⟨h, plain_finds laid plain, plain_finds laid plain, fun a steps lies => ⟨fun _ _ _ there => there, ?_⟩⟩
    exact ⟨steps.toList, lies.found, List.forall₂_same.mpr (fun entry _ => .same entry), plain a steps lies⟩

theorem accepted {document : Value} {w w' : World} (ran : checks document w = .ok () w') (none : w'.problems = []) :
    validate document w = .ok () w' := by
  rw [validate_eq, Work.ok_bind ran]
  simp only [conclude, Bind.bind, EStateM.bind, Script.get_result, none]
  rfl

theorem refused {document : Value} {w w' : World} (ran : checks document w = .ok () w') (some : w'.problems ≠ []) :
    validate document w = .error (.invalidDocument w'.problems) w' := by
  have filled : w'.problems.isEmpty = false := by simpa using some
  rw [validate_eq, Work.ok_bind ran]
  simp only [conclude, Bind.bind, EStateM.bind, Script.get_result, filled]
  rfl

/-- A section that has no problems is a mapping. -/
theorem entries_of_unproblematic {name refusal : String} {each : Value × Value → List Problem} {v : Value}
    (none : sectionProblems h name refusal each v = []) : ∃ inner, v.entries? h = some inner := by
  unfold sectionProblems at none
  split at none
  · cases made : v.entries? h with
    | none =>
      rw [made] at none
      cases none
    | some inner => exact ⟨inner, rfl⟩
  · cases none

end

/-- The problems of a document are listed, each of them once and in the order of the document, and the document is accepted if it
has none. Those of an entry of a section depend on nothing but what the entry reaches. In a document that is accepted the
definitions that are texts are written out, and it is accepted again as it is then. -/
theorem validated {w : World} {d : Addr} {entries : Entries} (new : w.problems = []) (honest : w.evaluator.Honest)
    (laid : Laid w.heap d entries) (apart : Apart w.heap d entries) (placed : ∀ s ∈ sources w.heap entries, Placed s) :
    (problems w.heap entries ≠ [] → ∃ w', validate (.ref d) w = .error (.invalidDocument (problems w.heap entries)) w') ∧
    (problems w.heap entries = [] → ∃ a steps w', validate (.ref d) w = .ok () w' ∧
      StepsAt w.heap entries a steps ∧ WrittenOut a steps w.heap w'.heap ∧
      ∀ later : World, later.heap = w'.heap → later.problems = [] → later.evaluator.Honest →
        ∃ w'', validate (.ref d) later = .ok () w'' ∧ w''.heap = later.heap) ∧
    ∀ h entry, w.heap.Agrees h entry.1 → w.heap.Agrees h entry.2 →
      stepProblems h entry = stepProblems w.heap entry ∧ schemaProblems h entry = schemaProblems w.heap entry := by
  obtain ⟨h', finds, again, written⟩ := checks_find laid apart
  obtain ⟨evaluator, journal, -, ran⟩ := (finds w rfl honest).1 placed
  rw [new, List.nil_append] at ran
  refine ⟨fun some => ?_, fun none => ?_, fun h entry key definition => ?_⟩
  · exact ⟨_, refused ran some⟩
  · have unproblematic := none
    simp only [problems, List.append_eq_nil_iff] at unproblematic
    obtain ⟨steps, made⟩ := entries_of_unproblematic unproblematic.1.2
    obtain ⟨a, lies⟩ := StepsAt.located (laid.part "steps") made
    rw [none] at ran
    refine ⟨a, steps, _, accepted ran rfl, lies, written a steps lies, ?_⟩
    rintro later rfl fresh sound
    obtain ⟨evaluator, journal, -, ran⟩ := (again later rfl sound).1 placed
    rw [fresh, none] at ran
    exact ⟨_, accepted ran rfl, rfl⟩
  · have judged := Judged.of_agrees key definition
    exact ⟨judged.stepProblems, judged.schemaProblems⟩

/-! Documents whose keys are all texts. -/

def isString : Value → Bool
  | .str _ => true
  | _ => false

section
variable {h : Heap} {d a : Addr} {entries steps : Entries} (strings : (Document.keys h entries).all isString = true)
include strings

theorem eq_str_of_strings : ∀ key ∈ keys h entries, ∃ s, key = .str s := by
  intro key member
  have string := List.all_eq_true.mp strings key member
  cases key with
  | str s => exact ⟨s, rfl⟩
  | _ => cases string

variable (lies : StepsAt h entries a steps)
include lies

theorem Laid.of_strings (found : h.objects[d]? = some (.dict entries)) (inside : Inside h (.ref d)) (distinct : steps.Distinct) :
    Laid h d entries := by
  refine ⟨found, inside, fun b steps' other => ?_, fun key member => ?_⟩
  · obtain ⟨-, rfl⟩ := lies.unique other
    exact distinct
  · obtain ⟨s, rfl⟩ := eq_str_of_strings strings key member
    exact legible_text h s

theorem Apart.of_strings (document : d ≠ a) (schemas : valueOf entries "schemas" ≠ .ref a)
    (definitions : ∀ entry ∈ steps.toList ++ members h (valueOf entries "schemas"), entry.2 ≠ .ref a) : Apart h d entries := by
  intro b steps' other _
  obtain ⟨rfl, rfl⟩ := lies.unique other
  refine ⟨document, schemas, definitions, fun key member => ?_⟩
  obtain ⟨s, rfl⟩ := eq_str_of_strings strings key member
  exact Inside.unreached rfl

end

/-- A document with a step that is a text and one that is a mapping. -/
def shortDocument : World where
  heap.objects := #[
    .dict #[(.str "version", .str "1.0"), (.str "steps", .ref 1), (.str "schemas", .ref 3)],
    .dict #[(.str "a", .str "1"), (.str "b", .ref 2)],
    .dict #[(.str "handler", .str "2")],
    .dict #[(.str "s", .ref 4)],
    .list #[.str "a", .str "b"]]

/-- A step that is a text is written out, and the document is accepted once more. -/
theorem short_document_validated : ∃ a steps w', validate (.ref 0) shortDocument = .ok () w' ∧
    WrittenOut a steps shortDocument.heap w'.heap ∧
    ∃ w'', validate (.ref 0) { heap := w'.heap } = .ok () w'' ∧ w''.heap = w'.heap := by
  let entries : Entries := #[(.str "version", .str "1.0"), (.str "steps", .ref 1), (.str "schemas", .ref 3)]
  have strings : (keys shortDocument.heap entries).all isString = true := by decide +kernel
  have lies : StepsAt shortDocument.heap entries 1 #[(.str "a", .str "1"), (.str "b", .ref 2)] := ⟨rfl, rfl⟩
  have laid : Laid shortDocument.heap 0 entries :=
    .of_strings strings lies rfl (.of_closed (by decide) (by decide)) (by unfold Entries.Distinct; decide)
  have schemas : members shortDocument.heap (valueOf entries "schemas") = [(.str "s", .ref 4)] := rfl
  have apart : Apart shortDocument.heap 0 entries := .of_strings strings lies (by decide) nofun (by simp [schemas])
  have placed : ∀ s ∈ sources shortDocument.heap entries, Placed s := by decide +kernel
  have honest : shortDocument.evaluator.Honest := nofun
  obtain ⟨a, steps, w', ran, -, written, again⟩ := (validated rfl honest laid apart placed).2.1 (by decide +kernel)
  exact ⟨a, steps, w', ran, written, again { heap := w'.heap } rfl rfl nofun⟩

/-- A document with one mapping for its steps and its schemas. -/
def sharedSection : World where
  heap.objects := #[
    .dict #[(.str "version", .str "1.0"), (.str "steps", .ref 1), (.str "schemas", .ref 1)],
    .dict #[(.str "a", .str "1")]]

/-- A document in which the mapping of the steps is also the definition of a step. -/
def sharedDefinition : World where
  heap.objects := #[
    .dict #[(.str "version", .str "1.0"), (.str "steps", .ref 1), (.str "schemas", .ref 2)],
    .dict #[(.str "input", .ref 1), (.str "handler", .str "1")],
    .dict #[(.str "s", .ref 3)],
    .list #[.str "handler"]]

/-- Where the mapping of the steps has another part in its document, a definition is judged after it has been written out. It may
get other problems than its own, and a document that is accepted may be refused afterwards. -/
theorem shared_steps_misjudged :
    (problems sharedSection.heap #[(.str "version", .str "1.0"), (.str "steps", .ref 1), (.str "schemas", .ref 1)] =
        [{ message := "schema must be a list of items or a dictionary", path := "schemas.a" }] ∧
      ∃ w, validate (.ref 0) sharedSection = .error (.invalidDocument
        [{ message := "unknown field 'handler'", path := "schemas.a" },
         { message := "'steps' must be a list", path := "schemas.a" }]) w) ∧
    ∃ w w', validate (.ref 0) sharedDefinition = .ok () w ∧ validate (.ref 0) w = .error (.invalidDocument
      [{ message := "'handler' must be a non-empty expression string", path := "steps.input" }]) w' := by
  refine ⟨⟨by decide +kernel, exists_of_listsOnly (by decide +kernel)⟩, ?_⟩
  have turns : Engine.passes (fun _ w => listsOnly
      [{ message := "'handler' must be a non-empty expression string", path := "steps.input" }] (validate (.ref 0) w))
      (validate (.ref 0) sharedDefinition) = true := by decide +kernel
  obtain ⟨_, w, ran, again⟩ := Engine.exists_of_passes turns
  obtain ⟨w', failed⟩ := exists_of_listsOnly again
  exact ⟨w, w', ran, failed⟩

end Workflow.Document
