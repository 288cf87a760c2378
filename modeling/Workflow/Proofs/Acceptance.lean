import Workflow.Proofs.Sharing
import Workflow.Proofs.Validation

/-! What is known of a document that was accepted. No problem was reported by any of the checks, so each section is a mapping,
each of its entries is in order, and nothing was written but the definitions of steps that are texts. -/

namespace Workflow.Adds

/-- If no problem is known at the end, none was known before. -/
theorem clear {job : Job α} (adds : Adds job) {w w' : World} {a : α} (ran : job w = .ok a w') (none : w'.problems = []) :
    w.problems = [] := by
  obtain ⟨answer, w₁, found, runs⟩ := adds w
  have same := (runs w.problems).symm.trans ran
  cases answer with
  | error fault => cases same
  | ok b =>
    cases same
    exact (List.append_eq_nil_iff.mp none).1

end Workflow.Adds

namespace Workflow.Document
open Engine (Work)
open Script (Addr Entries Heap Object Value)

/-- The definition of a step is in order: it has a name, a source as its handler, and a mapping if it has globals. -/
def StepInOrder (h : Heap) (entry : Value × Value) : Prop :=
  ∃ id entries source, entry.1 = .str id ∧ id.isEmpty = false ∧ definition? h entry.2 = some entries ∧
    valueOf entries "handler" = .str source ∧
      ∀ globals, Entries.named? entries "globals" = some globals → (globals.entries? h).isSome

/-- The definition of a schema is in order: its id can be written, and it is a list of items, or a mapping with a list of items
and a prefix that can stand in front of ids. -/
def SchemaInOrder (h : Heap) (entry : Value × Value) : Prop :=
  (∃ s, entry.1.plain h = .ok s) ∧ ((entry.2.listItems? h).isSome ∨
    ∃ config, entry.2.entries? h = some config ∧ ((valueOf config "steps").listItems? h).isSome ∧
      isSpace (valueOf config "prefix") = true)

/-- What is known when a job has come to its end in some heap and no problem is known then. -/
def Clears (job : Job Unit) (h : Heap) (fact : Prop) (h' : Heap) : Prop :=
  ∀ w w', w.heap = h → job w = .ok () w' → w'.problems = [] → fact ∧ w'.heap = h'

namespace Clears
variable {h h₁ h₂ : Heap} {fact more : Prop}

theorem mono {job : Job Unit} (clears : Clears job h fact h₁) (implies : fact → more) : Clears job h more h₁ := by
  intro w w' here ran none
  obtain ⟨holds, there⟩ := clears w w' here ran none
  exact ⟨implies holds, there⟩

theorem nothing : Clears (pure ()) h True h := by
  rintro w w' here ⟨⟩ -
  exact ⟨trivial, here⟩

theorem report (message path : String) : Clears (Job.report message path) h fact h₁ := by
  rintro w w' - ⟨⟩ none
  cases (List.append_eq_nil_iff.mp none).2

theorem bind {x : Job Unit} {k : Unit → Job Unit} (adds : Adds (k ())) (first : Clears x h fact h₁)
    (rest : Clears (k ()) h₁ more h₂) : Clears (x >>= k) h (fact ∧ more) h₂ := by
  intro w w' here ran none
  obtain ⟨_, w₁, begun, ran⟩ := Work.bind_ok ran
  obtain ⟨holds, there⟩ := first w w₁ here begun (adds.clear ran none)
  obtain ⟨later, final⟩ := rest w₁ w' there ran none
  exact ⟨⟨holds, later⟩, final⟩

/-- A check that always finds something. -/
theorem stop {x : Job Unit} {k : Unit → Job Unit} (adds : Adds (k ())) (first : Clears x h False h₁) :
    Clears (x >>= k) h False h₂ := by
  intro w w' here ran none
  obtain ⟨_, w₁, begun, ran⟩ := Work.bind_ok ran
  exact (first w w₁ here begun (adds.clear ran none)).1.elim

/-- What is looked up or made first. -/
theorem after {x : Job α} {k : α → Job Unit} {a : α} (ran : ∀ w, w.heap = h → x w = .ok a { w with heap := h₁ })
    (rest : Clears (k a) h₁ fact h₂) : Clears (x >>= k) h fact h₂ := by
  intro w w' here goes none
  rw [Work.ok_bind (ran w here)] at goes
  exact rest _ w' rfl goes none

theorem entries {v : Value} {k : Option Entries → Job Unit} (rest : Clears (k (v.entries? h)) h fact h₁) :
    Clears (entries? v >>= k) h fact h₁ := after (fun w here => by rw [← here]; rfl) rest

theorem listed {v : Value} {k : Bool → Job Unit} (rest : Clears (k (v.listItems? h).isSome) h fact h₁) :
    Clears (isList v >>= k) h fact h₁ := after (fun w here => by rw [← here]; rfl) rest

theorem truth {v : Value} {k : Bool → Job Unit} (rest : Clears (k (v.truth h)) h fact h₁) :
    Clears (isTrue v >>= k) h fact h₁ := after (fun w here => by rw [← here]; rfl) rest

/-- A value that was shown can be written. -/
theorem text {v : Value} {k : String → Job Unit} (rest : ∀ s, Clears (k s) h fact h₁) :
    Clears (Job.shown v >>= k) h ((∃ s, v.plain h = .ok s) ∧ fact) h₁ := by
  rintro w w' rfl ran none
  obtain ⟨s, w₁, shown, ran⟩ := Work.bind_ok ran
  cases written : v.plain w.heap with
  | ok t =>
    cases (shown_eq written).symm.trans shown
    obtain ⟨holds, there⟩ := rest s w w' rfl ran none
    exact ⟨⟨⟨s, rfl⟩, holds⟩, there⟩
  | error fault =>
    simp only [Job.shown, Job.act, Script.Act.plain, Script.Act.rendered, Bind.bind, EStateM.bind, Script.get_result, written]
      at shown
    cases fault <;> cases shown

theorem checkFields {names : List String} {text path : String} {entries : List (Value × Value)} :
    Clears (Document.checkFields names text path entries) h True h := by
  induction entries with
  | nil => exact nothing
  | cons entry rest ih =>
    obtain ⟨key, v⟩ := entry
    unfold Document.checkFields
    dsimp only
    split
    · have reported (s : String) : Clears (do
          Job.report s!"{text} '{s}'" path
          Document.checkFields names text path rest) h (True ∧ True) h := bind (Adds.checking.checkFields _ _ _ _) (report _ _) ih
      exact (Clears.text reported).mono (fun _ => trivial)
    · exact ih

theorem sameHeap_tolerant : Tolerant (fun h h' => h' = h) (fun w w' : World => w'.heap = w.heap) where
  refl _ := rfl
  trans first second := second.trans first
  heap _ _ same := same
  compiled _ _ _ _ := rfl
  logged _ _ := rfl

theorem checkHandler {path : String} {handler : Value} :
    Clears (Document.checkHandler path handler) h (∃ source, handler = .str source) h := by
  unfold Document.checkHandler
  split
  · next source =>
    split
    · exact report _ _
    · rintro w w' rfl ran none
      obtain ⟨r, w₁, tried, ran⟩ := Work.bind_ok ran
      have same : w₁.heap = w.heap := (Tolerant.attempt (sameHeap_tolerant.compile source)).ok tried
      split at ran
      · cases ran
        exact ⟨⟨source, rfl⟩, same⟩
      · cases ran
        cases (List.append_eq_nil_iff.mp none).2
      · cases ran
  · exact report _ _

/-- A row of checks, each of which may leave the heap in a state of some kind. -/
theorem forM {check : α → Job Unit} {facts : α → Prop} {leaves : Heap → α → Heap} {S : Heap → Prop} {items : List α}
    (adds : ∀ a, Adds (check a)) (clears : ∀ a ∈ items, ∀ h, S h → Clears (check a) h (facts a) (leaves h a))
    (keeps : ∀ a ∈ items, ∀ h, S h → S (leaves h a)) (start : S h) :
    Clears (items.forM check) h (∀ a ∈ items, facts a) (items.foldl leaves h) := by
  induction items generalizing h with
  | nil => exact nothing.mono (fun _ => List.forall_mem_nil _)
  | cons a rest ih =>
    have first := clears a List.mem_cons_self h start
    refine (bind (Adds.checking.forM adds rest) first (ih ?_ ?_ (keeps a List.mem_cons_self h start))).mono
      (fun ⟨first, others⟩ => List.forall_mem_cons.mpr ⟨first, others⟩)
    · exact fun b member => clears b (List.mem_cons_of_mem a member)
    · exact fun b member => keeps b (List.mem_cons_of_mem a member)

/-- The checks of the definition of a step, whose entries are known. -/
theorem checkEntries (path : String) (entries : Entries) :
    Clears (do
      Document.checkFields stepFields "unknown field" path entries.toList
      Document.checkHandler path (valueOf entries "handler")
      match Entries.named? entries "globals" with
      | none => return ()
      | some globals =>
        if (← Document.entries? globals).isNone then Job.report "'globals' must be a dictionary" path) h
      (∃ source, valueOf entries "handler" = .str source ∧
        ∀ globals, Entries.named? entries "globals" = some globals → (globals.entries? h).isSome) h := by
  have globalsAdds : Adds (match Entries.named? entries "globals" with
      | none => return ()
      | some globals => do
        if (← Document.entries? globals).isNone then Job.report "'globals' must be a dictionary" path) := by
    split
    · exact .pure _
    · refine (Adds.checking.entries? _).bind (fun found => ?_)
      split
      · exact .report _ _
      · exact .pure _
  have globals : Clears (match Entries.named? entries "globals" with
      | none => return ()
      | some globals => do
        if (← Document.entries? globals).isNone then Job.report "'globals' must be a dictionary" path) h
      (∀ globals, Entries.named? entries "globals" = some globals → (globals.entries? h).isSome) h := by
    split
    · next none => exact nothing.mono (fun _ globals found => by rw [none] at found; cases found)
    · next globals found =>
      refine Clears.entries ?_
      cases made : globals.entries? h with
      | none => exact report _ _
      | some inner =>
        refine nothing.mono (fun _ other same => ?_)
        cases found.symm.trans same
        rw [made]
        rfl
  refine (bind ?_ checkFields (bind globalsAdds checkHandler globals)).mono ?_
  · exact (Adds.checkHandler _ _).bind (fun _ => globalsAdds)
  · exact fun ⟨_, ⟨source, handled⟩, mapped⟩ => ⟨source, handled, mapped⟩

theorem checkStep {a : Addr} {entry : Value × Value} (inside : a < h.objects.size) :
    Clears (Document.checkStep a entry.1 entry.2) h (StepInOrder h entry) (expanded a h entry) := by
  obtain ⟨id, config⟩ := entry
  refine (Clears.text (fun s => ?_)).mono And.right
  cases id with
  | str id =>
    cases empty : id.isEmpty with
    | true =>
      obtain rfl : id = "" := by simpa using empty
      exact report _ _
    | false =>
      split
      · next same =>
        cases same
        cases empty
      · by_cases text : ∃ source, config = .str source
        · obtain ⟨source, rfl⟩ := text
          refine after (fun w here => here ▸ definition_writes empty w) (Clears.entries ?_)
          have made : (Value.ref h.objects.size).entries? (expanded a h (.str id, .str source)) =
              some #[(.str "handler", .str source)] := by
            simp only [Value.entries?, Heap.object_of_getElem? (expanded_made inside empty)]
          rw [made]
          have bare (globals : Value) (found : (none : Option Value) = some globals) : (globals.entries? h).isSome := by
            cases found
          exact (checkEntries _ _).mono (fun _ => ⟨id, _, source, rfl, empty, rfl, rfl, bare⟩)
        · have other : ∀ source, config ≠ .str source := fun source same => text ⟨source, same⟩
          rw [definition_kept other, pure_bind, expanded_other other]
          refine Clears.entries ?_
          cases made : config.entries? h with
          | none => exact report _ _
          | some entries =>
            refine (checkEntries _ _).mono (fun known => ?_)
            obtain ⟨source, handled, mapped⟩ := known
            exact ⟨id, entries, source, rfl, empty, (definition?_other other).trans made, handled, mapped⟩
      · next other => exact absurd rfl (other id)
  | _ =>
    rintro w w' here ran none
    obtain ⟨_, w₁, -, ran⟩ := Work.bind_ok ran
    cases ran
    cases (List.append_eq_nil_iff.mp none).2

theorem refusal {c : Bool} (message path : String) :
    Clears (if !c then Job.report message path else pure ()) h (c = true) h := by
  cases c with
  | true => exact nothing.mono (fun _ => rfl)
  | false => exact report _ _

theorem checkSchema {entry : Value × Value} : Clears (Document.checkSchema entry.1 entry.2) h (SchemaInOrder h entry) h := by
  obtain ⟨id, config⟩ := entry
  refine Clears.text (fun s => listed ?_)
  dsimp only
  cases row : (config.listItems? h).isSome with
  | true => exact nothing.mono (fun _ => .inl rfl)
  | false =>
    refine Clears.entries ?_
    cases made : config.entries? h with
    | none => exact report _ _
    | some inner =>
      have spaced : Adds (if !isSpace (valueOf inner "prefix") then
          Job.report "'prefix' must be a non-empty string without '/'" s!"schemas.{s}" else pure ()) := by
        split
        · exact .report _ _
        · exact .pure _
      have fits : Clears (do
          if !(← isList (valueOf inner "steps")) then Job.report "'steps' must be a list" s!"schemas.{s}"
          if !isSpace (valueOf inner "prefix") then
            Job.report "'prefix' must be a non-empty string without '/'" s!"schemas.{s}") h
          (((valueOf inner "steps").listItems? h).isSome = true ∧ isSpace (valueOf inner "prefix") = true) h := by
        refine listed ?_
        cases ((valueOf inner "steps").listItems? h).isSome with
        | true => exact (refusal _ _).mono (fun spaced => ⟨rfl, spaced⟩)
        | false => exact (bind spaced (report _ _) (refusal _ _)).mono (fun ⟨impossible, _⟩ => impossible)
      have adds : Adds (do
          if !(← isList (valueOf inner "steps")) then Job.report "'steps' must be a list" s!"schemas.{s}"
          if !isSpace (valueOf inner "prefix") then
            Job.report "'prefix' must be a non-empty string without '/'" s!"schemas.{s}") :=
        (Adds.checking.isList _).bind (fun _ => Adds.checking.either (.report _ _) (fun _ => spaced) spaced)
      exact (bind adds checkFields fits).mono (fun fact => .inr ⟨inner, rfl, fact.2⟩)

theorem get {k : World → Job Unit} (rest : ∀ w, w.heap = h → Clears (k w) h fact h₁) :
    Clears (MonadState.get >>= k) h fact h₁ := fun w w' here ran none => rest w here w w' here ran none

theorem checkVersion (version : Value) : Clears (Document.checkVersion version) h True h := by
  refine truth ?_
  cases version.truth h with
  | false => exact report _ _
  | true =>
    simp only [Bool.not_true, Bool.false_eq_true, if_false]
    cases version with
    | str s =>
      dsimp only
      cases versions.contains s with
      | true => exact nothing
      | false => exact report _ _
    | _ => exact get (fun w here => report _ _)

theorem checkSection {name : String} {check : Value → Job Unit} {v : Value} (clears : Clears (check v) h fact h₁) :
    Clears (Document.checkSection name check v) h fact h₁ := by
  refine truth ?_
  cases v.truth h with
  | false => exact report _ _
  | true => exact clears

end Clears

/-! Documents. -/

/-- An object is part of the definition of a step or of the schemas. -/
def Parts (h : Heap) (entries : Entries) (b : Addr) : Prop :=
  h.Reaches (valueOf entries "schemas") b ∨ ∃ entry ∈ members h (valueOf entries "steps"), h.Reaches entry.2 b

/-- A document lies in a heap: all of it is there, and a step or a schema has one definition. -/
structure Lies (h : Heap) (d : Addr) (entries : Entries) : Prop where
  found : h.objects[d]? = some (.dict entries)
  inside : Inside h (.ref d)
  steps : ∀ a steps, StepsAt h entries a steps → steps.Distinct
  schemas : ∀ schemas, (valueOf entries "schemas").entries? h = some schemas → schemas.Distinct

/-- If the definition of a step is a text, which is written out, then the mapping of the steps is nothing else in its document. -/
def Separate (h : Heap) (entries : Entries) : Prop :=
  ∀ a steps, StepsAt h entries a steps → (∃ entry ∈ steps.toList, isText entry = true) → ¬ Parts h entries a

/-- The mapping of the steps lies outside of some objects that all definitions are made of. -/
theorem Separate.of_outside {h : Heap} {S : Addr → Prop} {a : Addr} {entries steps : Entries} (shares : h.Shares S h)
    (at_ : StepsAt h entries a steps) (outside : ¬ S a) (schemas : (valueOf entries "schemas").Among S)
    (definitions : ∀ entry ∈ steps.toList, entry.2.Among S) : Separate h entries := by
  rintro b others other - part
  obtain ⟨rfl, rfl⟩ := at_.unique other
  obtain reaches | ⟨entry, member, reaches⟩ := part
  · exact outside (shares.reaches schemas reaches)
  · rw [at_.members] at member
    exact outside (shares.reaches (definitions entry member) reaches)

namespace Lies
variable {h : Heap} {d a : Addr} {entries steps : Entries}

theorem made (lies : Lies h d entries) : (Value.ref d).entries? h = some entries := by
  simp only [Value.entries?, Heap.object_of_getElem? lies.found]

/-- What the document is made of is the same wherever it is all there. -/
theorem shares (lies : Lies h d entries) : h.Shares (Parts h entries) h where
  same b part := by
    have there : b < h.objects.size := by
      obtain reaches | ⟨entry, member, reaches⟩ := part
      · exact lies.inside.valueOf lies.made "schemas" b reaches
      · obtain ⟨inner, made, member⟩ := mem_members.mp member
        exact ((lies.inside.valueOf lies.made "steps").parts made entry member).2 b reaches
    exact ⟨_, Array.getElem?_eq_getElem there, Array.getElem?_eq_getElem there⟩
  closed b part c named :=
    part.imp (fun reaches => .deeper reaches named)
      (fun ⟨entry, member, reaches⟩ => ⟨entry, member, .deeper reaches named⟩)

theorem definition_among {entry : Value × Value} (member : entry ∈ members h (valueOf entries "steps")) :
    entry.2.Among (Parts h entries) := fun _ named => .inr ⟨entry, member, .here named⟩

theorem schema_among {entry : Value × Value} (member : entry ∈ members h (valueOf entries "schemas")) :
    entry.1.Among (Parts h entries) ∧ entry.2.Among (Parts h entries) := by
  obtain ⟨inner, made, member⟩ := mem_members.mp member
  exact ⟨fun _ named => .inl (reaches_part made member (.inl (.here named))),
    fun _ named => .inl (reaches_part made member (.inr (.here named)))⟩

/-- A document is not the mapping of its steps if one of them is written out. -/
theorem apart (lies : Lies h d entries) (separate : Separate h entries) (at_ : StepsAt h entries a steps)
    (text : ∃ entry ∈ steps.toList, isText entry = true) : d ≠ a := by
  rintro rfl
  obtain rfl : entries = steps := by simpa [lies.found] using at_.found
  refine separate d entries at_ text (.inr ?_)
  obtain none | ⟨entry, member, found⟩ := named_cases entries "steps"
  · have named := at_.named
    rw [valueOf, none] at named
    cases named
  · have named := at_.named
    rw [valueOf, found] at named
    refine ⟨entry, by rw [at_.members]; exact member, ?_⟩
    rw [show entry.2 = .ref d from named]
    exact .here List.mem_cons_self

end Lies

/-- A document is still there while its steps are written out. -/
structure Stays (h : Heap) (d a : Addr) (entries : Entries) (k : Heap) : Prop where
  shares : h.Shares (Parts h entries) k
  document : k.objects[d]? = some (.dict entries)
  mapping : ∃ steps, k.objects[a]? = some (.dict steps)

namespace Stays
variable {h k : Heap} {d a : Addr} {entries steps : Entries}

theorem start (lies : Lies h d entries) (at_ : StepsAt h entries a steps) : Stays h d a entries h :=
  ⟨lies.shares, lies.found, steps, at_.found⟩

theorem expanded (stays : Stays h d a entries k) (lies : Lies h d entries) (separate : Separate h entries)
    (at_ : StepsAt h entries a steps) {entry : Value × Value} (member : entry ∈ steps.toList) :
    Stays h d a entries (expanded a k entry) := by
  cases kind : isText entry with
  | false =>
    rw [expanded_kept kind]
    exact stays
  | true =>
    have apart := lies.apart separate at_ ⟨entry, member, kind⟩
    have outside := separate a steps at_ ⟨entry, member, kind⟩
    obtain ⟨inner, there⟩ := stays.mapping
    refine ⟨⟨fun b part => ?_, stays.shares.closed⟩, expanded_others apart stays.document entry, ?_⟩
    · obtain ⟨o, left, right⟩ := stays.shares.same b part
      exact ⟨o, left, expanded_others (by rintro rfl; exact outside part) right entry⟩
    · unfold Document.expanded
      split
      · split
        · exact ⟨inner, there⟩
        · exact ⟨_, inserted_found (Heap.Extends.alloc k _ a _ there) _ _⟩
      · exact ⟨inner, there⟩

theorem expandAll (stays : Stays h d a entries k) (lies : Lies h d entries) (separate : Separate h entries)
    (at_ : StepsAt h entries a steps) {row : List (Value × Value)} (within : ∀ entry ∈ row, entry ∈ steps.toList) :
    Stays h d a entries (row.foldl (Document.expanded a) k) := by
  induction row generalizing k with
  | nil => exact stays
  | cons entry rest ih =>
    exact ih (stays.expanded lies separate at_ (within entry List.mem_cons_self))
      (fun entry member => within entry (List.mem_cons_of_mem _ member))

end Stays

section
variable {h k : Heap} {S : Addr → Prop} {entry : Value × Value} (shares : h.Shares S k)
include shares

theorem definition?_shared (among : entry.2.Among S) : definition? k entry.2 = definition? h entry.2 := by
  obtain ⟨id, config⟩ := entry
  have same := shares.entries? among
  cases config with
  | str source => rfl
  | _ => exact same

/-- The parts of a mapping are among the objects that it lies among. -/
theorem entries_among {v : Value} {inner : Entries} (among : v.Among S) (made : v.entries? h = some inner) :
    ∀ b ∈ (Object.dict inner).addresses, S b := by
  cases v with
  | ref b =>
    have parts := shares.closed b (among b List.mem_cons_self)
    simp only [Value.entries?] at made
    split at made
    · next found =>
      cases made
      rwa [found] at parts
    · cases made
  | _ => cases made

omit shares in
theorem valueOf_among {inner : Entries} (parts : ∀ b ∈ (Object.dict inner).addresses, S b) (name : String) :
    (valueOf inner name).Among S := by
  obtain none | ⟨entry, member, found⟩ := named_cases inner name
  · rw [valueOf, none]
    exact .plain rfl
  · rw [valueOf, found]
    exact (Value.Among.entries parts entry member).2

theorem definition_parts (among : entry.2.Among S) {inner : Entries} (made : definition? h entry.2 = some inner) :
    ∀ b ∈ (Object.dict inner).addresses, S b := by
  by_cases text : ∃ source, entry.2 = .str source
  · obtain ⟨source, same⟩ := text
    rw [same] at made
    cases made
    exact nofun
  · rw [definition?_other (fun source same => text ⟨source, same⟩)] at made
    exact entries_among shares among made

theorem StepInOrder.of_shared (among : entry.2.Among S) (ordered : StepInOrder k entry) : StepInOrder h entry := by
  obtain ⟨id, inner, source, named, present, made, handled, mapped⟩ := ordered
  rw [definition?_shared shares among] at made
  refine ⟨id, inner, source, named, present, made, handled, fun globals found => ?_⟩
  have globalsAmong : globals.Among S := Value.Among.named (definition_parts shares among made) found
  rw [← shares.entries? globalsAmong]
  exact mapped globals found

theorem SchemaInOrder.of_shared (key : entry.1.Among S) (among : entry.2.Among S) (ordered : SchemaInOrder k entry) :
    SchemaInOrder h entry := by
  obtain ⟨written, form⟩ := ordered
  rw [shares.plain key] at written
  rw [shares.listItems? among, shares.entries? among] at form
  refine ⟨written, form.imp_right (fun ⟨config, made, steps, spaced⟩ => ⟨config, made, ?_, spaced⟩)⟩
  rwa [shares.listItems? (valueOf_among (entries_among shares among made) "steps")] at steps

end

/-- What is known of a document when all checks have found nothing. -/
structure InOrder (h : Heap) (entries : Entries) (a : Addr) (steps schemas : Entries) : Prop where
  at_ : StepsAt h entries a steps
  made : (valueOf entries "schemas").entries? h = some schemas
  steps : ∀ entry ∈ steps.toList, StepInOrder h entry
  schemas : ∀ entry ∈ schemas.toList, SchemaInOrder h entry

section
variable {h : Heap} {d a : Addr} {entries steps : Entries}

theorem schemas_adds {document : Value} :
    Adds (do checkSection "schemas" checkSchemas (← optionalPart document "schemas")) :=
  (Adds.checking.optionalPart _ _).bind (fun _ => Adds.checking.checkSection _ Adds.checking.checkSchemas _)

/-- What is known behind the checks of the sections. Each check adds to the problems that are known, so none was known before
it. -/
theorem checks_rest (made : (Value.ref d).entries? h = some entries) {fact : Prop} {k : Heap}
    (rest : Clears (checkSection "steps" checkSteps (valueOf entries "steps") >>= fun _ => do
      checkSection "schemas" checkSchemas (← optionalPart (.ref d) "schemas")) h fact k) :
    Clears (checks (.ref d)) h fact k := by
  have behind (sections : Job Unit) (adds : Adds sections) (rest : Clears sections h fact k) : Clears (do
      checkVersion (valueOf entries "version")
      Document.checkFields fields "Unknown field" "" entries.toList
      sections) h fact k :=
    (Clears.bind ((Adds.checking.checkFields _ _ _ _).bind (fun _ => adds)) (.checkVersion _) (.bind adds .checkFields rest)).mono
      (fun known => known.2.2)
  refine .entries ?_
  rw [made]
  exact behind _ ((Adds.checking.checkSection _ Adds.checking.checkSteps _).bind (fun _ => schemas_adds)) rest

theorem checks_clear (lies : Lies h d entries) (separate : Separate h entries) (at_ : StepsAt h entries a steps) :
    Clears (checks (.ref d)) h (∃ schemas, InOrder h entries a steps schemas) (steps.toList.foldl (expanded a) h) := by
  have final : Stays h d a entries (steps.toList.foldl (expanded a) h) :=
    (Stays.start lies at_).expandAll lies separate at_ (fun _ member => member)
  have written : Clears (checkSection "steps" checkSteps (valueOf entries "steps")) h
      (∀ entry ∈ steps.toList, StepInOrder h entry) (steps.toList.foldl (expanded a) h) := by
    rw [at_.named]
    refine .checkSection (.entries ?_)
    have found : (Value.ref a).entries? h = some steps := by simp only [Value.entries?, Heap.object_of_getElem? at_.found]
    rw [found]
    refine .forM (S := Stays h d a entries) (fun entry => Adds.checking.checkStep _ _ _) (fun entry member k stays => ?_)
      (fun entry member k stays => stays.expanded lies separate at_ member) (.start lies at_)
    obtain ⟨inner, there⟩ := stays.mapping
    obtain ⟨inside, -⟩ := Array.getElem?_eq_some_iff.mp there
    rw [← at_.members] at member
    exact (Clears.checkStep inside).mono (.of_shared stays.shares (Lies.definition_among member))
  have judged : Clears (do checkSection "schemas" checkSchemas (← optionalPart (.ref d) "schemas"))
      (steps.toList.foldl (expanded a) h) (∃ schemas, (valueOf entries "schemas").entries? h = some schemas ∧
        ∀ entry ∈ schemas.toList, SchemaInOrder h entry) (steps.toList.foldl (expanded a) h) := by
    generalize steps.toList.foldl (expanded a) h = k at final
    have section_ : (valueOf entries "schemas").Among (Parts h entries) := fun _ named => .inl (.here named)
    have looked (w : World) (here : w.heap = k) :
        optionalPart (.ref d) "schemas" w = .ok (valueOf entries "schemas") { w with heap := k } := by
      subst here
      have found : (Value.ref d).entries? w.heap = some entries := by
        simp only [Value.entries?, Heap.object_of_getElem? final.document]
      simp only [optionalPart, entries?, Bind.bind, EStateM.bind, Script.get_result, found]
      rfl
    refine .after looked (.checkSection (.entries ?_))
    rw [final.shares.entries? section_]
    cases made : (valueOf entries "schemas").entries? h with
    | none => exact .report _ _
    | some schemas =>
      have all : Clears (schemas.toList.forM fun entry => checkSchema entry.1 entry.2) k
          (∀ entry ∈ schemas.toList, SchemaInOrder h entry) (schemas.toList.foldl (fun k _ => k) k) := by
        refine .forM (S := fun k => h.Shares (Parts h entries) k) (fun entry => Adds.checking.checkSchema _ _)
          (fun entry member k shares => ?_) (fun _ _ _ shares => shares) final.shares
        obtain ⟨key, among⟩ := Lies.schema_among (mem_members.mpr ⟨schemas, made, member⟩)
        exact Clears.checkSchema.mono (.of_shared shares key among)
      rw [List.foldl_fixed] at all
      exact all.mono (fun ordered => ⟨schemas, rfl, ordered⟩)
  refine (checks_rest lies.made (written.bind schemas_adds judged)).mono (fun known => ?_)
  obtain ⟨steps, schemas, made, each⟩ := known
  exact ⟨schemas, at_, made, steps, each⟩

/-- Without a mapping of steps, a problem is found. -/
theorem checks_stepless (made : (Value.ref d).entries? h = some entries)
    (stepless : (valueOf entries "steps").entries? h = none) : Clears (checks (.ref d)) h False h := by
  have refused : Clears (checkSection "steps" checkSteps (valueOf entries "steps")) h False h := by
    refine .checkSection (.entries ?_)
    rw [stepless]
    cases valueOf entries "steps" <;> exact .report _ _
  exact checks_rest made (.stop schemas_adds refused)

/-- Checks end well if they have found nothing. -/
theorem conclude_ok {w w' : World} (ran : conclude w = .ok () w') : w' = w ∧ w.problems = [] := by
  simp only [conclude, Bind.bind, EStateM.bind, Script.get_result] at ran
  split at ran
  · cases ran
  · next empty =>
    cases ran
    exact ⟨rfl, by simpa using empty⟩

/-- A document is accepted if its checks have found nothing. -/
theorem validate_ok {document : Value} {w w' : World} (ran : validate document w = .ok () w') :
    checks document w = .ok () w' ∧ w'.problems = [] := by
  rw [validate_eq] at ran
  obtain ⟨_, w₁, checked, concluded⟩ := Work.bind_ok ran
  obtain ⟨rfl, none⟩ := conclude_ok concluded
  exact ⟨checked, none⟩

/-- An accepted document is in order, and its steps have been written out. -/
theorem accepted_in_order {w w' : World} (lies : Lies w.heap d entries) (separate : Separate w.heap entries)
    (ran : validate (.ref d) w = .ok () w') :
    ∃ a steps schemas, InOrder w.heap entries a steps schemas ∧ w'.heap = steps.toList.foldl (expanded a) w.heap := by
  obtain ⟨checked, none⟩ := validate_ok ran
  cases made : (valueOf entries "steps").entries? w.heap with
  | none => exact (checks_stepless lies.made made w w' rfl checked none).1.elim
  | some steps =>
    obtain ⟨a, at_⟩ := StepsAt.located (lies.inside.valueOf lies.made "steps") made
    obtain ⟨⟨schemas, ordered⟩, written⟩ := checks_clear lies separate at_ w w' rfl checked none
    exact ⟨a, steps, schemas, ordered, written⟩

end

end Workflow.Document
