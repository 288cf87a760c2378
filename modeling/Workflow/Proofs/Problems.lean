import Workflow.Document
import Workflow.Proofs.Raising

/-! What is wrong with a document, part by part. What a check finds is told without the check, and depends on the part that is
checked alone. -/

namespace Workflow
open Engine (Work answered answered_error answered_ok)
open Script (Act Addr Entries Heap Value)

namespace Document

/-- The written form of a value in a message. -/
def quotedText (h : Heap) (v : Value) : String :=
  match v.quoted h with
  | .ok s => s
  | .error _ => ""

def versionProblems (h : Heap) (version : Value) : List Problem :=
  if version.truth h then
    match version with
    | .str s => if versions.contains s then [] else [{ message := s!"Unsupported version '{s}'. Supported: ['1.0']" }]
    | v => [{ message := s!"'version' field must be a string, got {v.className h}" }]
  else [{ message := "'version' field is required" }]

/-- One problem for each key that is no name of a field. -/
def fieldProblems (h : Heap) (names : List String) (text path : String) (entries : List (Value × Value)) : List Problem :=
  (entries.filter (fun entry => !isNamed names entry.1)).map
    (fun entry => { message := s!"{text} '{Fault.shown h entry.1}'", path })

def handlerProblems (path : String) : Value → List Problem
  | .str source =>
    if (Text.strip source).isEmpty then [{ message := "'handler' must be a non-empty expression string", path }]
    else
      match Script.compile source with
      | .error (.refused refusal) => [{ message := s!"invalid handler: {refusal.reason}", path }]
      | _ => []
  | _ => [{ message := "'handler' must be a non-empty expression string", path }]

def globalsProblems (h : Heap) (path : String) (config : Entries) : List Problem :=
  match Entries.named? config "globals" with
  | some globals => if (globals.entries? h).isNone then [{ message := "'globals' must be a dictionary", path }] else []
  | none => []

/-- The entries that the definition of a step stands for. A text stands for its handler. -/
def definition? (h : Heap) : Value → Option Entries
  | .str source => some #[(.str "handler", .str source)]
  | config => config.entries? h

/-- What is wrong with the definition of a step. -/
def stepProblems (h : Heap) : Value × Value → List Problem
  | (.str id, config) =>
    if id.isEmpty then [{ message := "Step id must be a non-empty string, got ''" }]
    else
      let path := s!"steps.{id}"
      match definition? h config with
      | some entries => fieldProblems h stepFields "unknown field" path entries.toList ++
          handlerProblems path (valueOf entries "handler") ++ globalsProblems h path entries
      | none => [{ message := "step definition must be a dictionary or handler string", path }]
  | (id, _) => [{ message := s!"Step id must be a non-empty string, got {quotedText h id}" }]

/-- What is wrong with the definition of a schema. -/
def schemaProblems (h : Heap) (entry : Value × Value) : List Problem :=
  let path := s!"schemas.{Fault.shown h entry.1}"
  if (entry.2.listItems? h).isSome then []
  else
    match entry.2.entries? h with
    | some config => fieldProblems h schemaFields "unknown field" path config.toList ++
        (if ((valueOf config "steps").listItems? h).isSome then [] else [{ message := "'steps' must be a list", path }]) ++
        (if isSpace (valueOf config "prefix") then []
          else [{ message := "'prefix' must be a non-empty string without '/'", path }])
    | none => [{ message := "schema must be a list of items or a dictionary", path }]

/-- What is wrong with a section: the problems of its entries, or one problem if it is missing, empty or no mapping. -/
def sectionProblems (h : Heap) (name refusal : String) (each : Value × Value → List Problem) (v : Value) : List Problem :=
  if v.truth h then
    match v.entries? h with
    | some entries => entries.toList.flatMap each
    | none => [{ message := refusal }]
  else [{ message := s!"'{name}' field is required and must not be empty" }]

def stepsProblems (h : Heap) : Value → List Problem :=
  sectionProblems h "steps" "'steps' must be a mapping of step id to definition" (stepProblems h)

def schemasProblems (h : Heap) : Value → List Problem :=
  sectionProblems h "schemas" "'schemas' must be a mapping of schema id to definition" (schemaProblems h)

/-- All that is wrong with a document. -/
def problems (h : Heap) (entries : Entries) : List Problem :=
  versionProblems h (valueOf entries "version") ++ fieldProblems h fields "Unknown field" "" entries.toList ++
    stepsProblems h (valueOf entries "steps") ++ schemasProblems h (valueOf entries "schemas")

/-! What the checks have to write and to compile. -/

def handlerSources : Value → List String
  | .str source => if (Text.strip source).isEmpty then [] else [source]
  | _ => []

def stepSources (h : Heap) : Value × Value → List String
  | (.str id, config) =>
    if id.isEmpty then []
    else
      match definition? h config with
      | some entries => handlerSources (valueOf entries "handler")
      | none => []
  | _ => []

def members (h : Heap) (v : Value) : List (Value × Value) := ((v.entries? h).getD #[]).toList

theorem mem_members {h : Heap} {v : Value} {entry : Value × Value} :
    entry ∈ members h v ↔ ∃ entries, v.entries? h = some entries ∧ entry ∈ entries.toList := by
  unfold members
  cases v.entries? h <;> simp

/-- The sources of the handlers of a document. -/
def sources (h : Heap) (entries : Entries) : List String := (members h (valueOf entries "steps")).flatMap (stepSources h)

/-- A key that can be written, in a message and in quotes. -/
def Legible (h : Heap) (key : Value) : Prop := (∃ s, key.plain h = .ok s) ∧ ∃ s, key.quoted h = .ok s

theorem legible_text (h : Heap) (s : String) : Legible h (.str s) := ⟨⟨s, rfl⟩, Text.quote s, rfl⟩

/-- The keys of a definition, and the one that it stands under. -/
def definitionKeys (h : Heap) (entry : Value × Value) : List Value := entry.1 :: (members h entry.2).map (·.1)

theorem mem_definitionKeys {h : Heap} {entry e : Value × Value} {entries : Entries} (made : entry.2.entries? h = some entries)
    (member : e ∈ entries.toList) : e.1 ∈ definitionKeys h entry :=
  List.mem_cons_of_mem _ (List.mem_map_of_mem (mem_members.mpr ⟨entries, made, member⟩))

/-- The keys that a document is judged by. -/
def keys (h : Heap) (entries : Entries) : List Value :=
  entries.toList.map (·.1) ++ (members h (valueOf entries "steps")).flatMap (definitionKeys h) ++
    (members h (valueOf entries "schemas")).flatMap (definitionKeys h)

/-- A value is put into a mapping under a key. -/
def inserted (h : Heap) (a : Addr) (key v : Value) : Heap :=
  match h.object a with
  | .dict entries => h.write a (.dict (Entries.insert entries key v))
  | _ => h

theorem inserted_other {h : Heap} {a b : Addr} (other : b ≠ a) (key v : Value) :
    (inserted h a key v).objects[b]? = h.objects[b]? := by
  unfold inserted
  split
  · exact Array.getElem?_setIfInBounds_ne other.symm
  · rfl

/-- The heap when the definition of a step has been written out in the mapping of the steps. -/
def expanded (a : Addr) (h : Heap) : Value × Value → Heap
  | (.str id, .str source) =>
    if id.isEmpty then h
    else inserted (h.alloc (.dict #[(.str "handler", .str source)])).2 a (.str id) (.ref h.objects.size)
  | _ => h

section
variable {a : Addr} {h : Heap} {id : String} {config : Value}

theorem definition?_other (other : ∀ source, config ≠ .str source) : definition? h config = config.entries? h := by
  cases config with
  | str source => exact absurd rfl (other source)
  | _ => rfl

theorem expanded_other (other : ∀ source, config ≠ .str source) (id : Value) : expanded a h (id, config) = h := by
  unfold expanded
  split
  · next same =>
    cases same
    exact absurd rfl (other _)
  · rfl

/-- The mapping that a text is made. -/
theorem expanded_made {source : String} (inside : a < h.objects.size) (present : id.isEmpty = false) :
    (expanded a h (.str id, .str source)).objects[h.objects.size]? = some (.dict #[(.str "handler", .str source)]) := by
  simp only [expanded, present, Bool.false_eq_true, if_false]
  rw [inserted_other (Nat.ne_of_gt inside)]
  exact h.alloc_found _

theorem expanded_nameless (config : Value) : expanded a h (.str "", config) = h := by cases config <;> rfl

/-- Of a definition that is only a handler, the handler is all that can be wrong. -/
theorem handler_only (h : Heap) (path : String) (v : Value) :
    fieldProblems h stepFields "unknown field" path (#[(Value.str "handler", v)] : Entries).toList ++
        handlerProblems path (valueOf #[(.str "handler", v)] "handler") ++ globalsProblems h path #[(.str "handler", v)] =
      handlerProblems path v := List.append_nil _

end

/-! What a check comes to. -/

/-- The source has no part that is out of place. -/
def Placed (source : String) : Prop := Script.compile source ≠ .error .misplaced

instance (source : String) : Decidable (Placed source) :=
  match found : Script.compile source with
  | .error .misplaced => .isFalse (fun placed => placed found)
  | .error (.refused _) => .isTrue (by rw [Placed, found]; nofun)
  | .ok _ => .isTrue (by rw [Placed, found]; nofun)

/-- From one heap to another, a job reports some problems, if of some sources none has a part that is out of place. -/
def Finds (job : Job Unit) (h : Heap) (found : List Problem) (sources : List String) (h' : Heap) : Prop :=
  ∀ w : World, w.heap = h → w.evaluator.Honest →
    ((∀ s ∈ sources, Placed s) → ∃ evaluator journal, evaluator.Honest ∧
        job w = .ok () { w with heap := h', evaluator, journal, problems := w.problems ++ found }) ∧
      (¬ (∀ s ∈ sources, Placed s) → ∃ w', job w = .error .misplaced w')

theorem shown_eq {w : World} {v : Value} {s : String} (written : v.plain w.heap = .ok s) : Job.shown v w = .ok s w := by
  simp only [Job.shown, Job.act, Act.plain, Act.rendered, Bind.bind, EStateM.bind, Script.get_result, written]
  rfl

theorem quoted_eq {w : World} {v : Value} {s : String} (written : v.quoted w.heap = .ok s) :
    Job.act (Act.quoted v) w = .ok s w := by
  simp only [Job.act, Act.quoted, Act.rendered, Bind.bind, EStateM.bind, Script.get_result, written]
  rfl

theorem insert_eq (a : Addr) (key v : Value) (w : World) :
    Job.act (do
      match ← Act.object a with
      | .dict entries => Act.write a (.dict (Entries.insert entries key v))
      | _ => return ()) w = .ok () { w with heap := inserted w.heap a key v } := by
  simp only [Job.act, Act.object, inserted, Bind.bind, EStateM.bind]
  cases w.heap.object a <;> rfl

/-- The definition of a step that is a text is written out. -/
theorem definition_writes {a : Addr} {id source : String} (present : id.isEmpty = false) (w : World) :
    definition a (.str id) (.str source) w =
      .ok (.ref w.heap.objects.size) { w with heap := expanded a w.heap (.str id, .str source) } := by
  have made : single "handler" (.str source) w =
      .ok (.ref w.heap.objects.size) { w with heap := (w.heap.alloc (.dict #[(.str "handler", .str source)])).2 } := rfl
  simp only [expanded, present, Bool.false_eq_true, if_false]
  unfold definition
  dsimp only
  rw [Work.ok_bind made]
  exact Work.ok_bind (insert_eq a (.str id) (.ref w.heap.objects.size) _)

theorem definition_kept {a : Addr} {id config : Value} (other : ∀ source, config ≠ .str source) :
    definition a id config = pure config := by
  cases config with
  | str source => exact absurd rfl (other source)
  | _ => rfl

namespace Finds
variable {h h₁ h₂ : Heap} {found more : List Problem} {sources others : List String}

theorem nothing : Finds (pure ()) h [] [] h := by
  rintro w rfl honest
  refine ⟨fun _ => ⟨w.evaluator, w.journal, honest, ?_⟩, fun misplaced => absurd nofun misplaced⟩
  rw [List.append_nil]
  rfl

theorem report (message path : String) : Finds (Job.report message path) h [{ message, path }] [] h := by
  rintro w rfl honest
  exact ⟨fun _ => ⟨w.evaluator, w.journal, honest, rfl⟩, fun misplaced => absurd nofun misplaced⟩

theorem bind {x : Job Unit} {k : Unit → Job Unit} (first : Finds x h found sources h₁) (rest : Finds (k ()) h₁ more others h₂) :
    Finds (x >>= k) h (found ++ more) (sources ++ others) h₂ := by
  intro w here honest
  obtain ⟨goes, fails⟩ := first w here honest
  by_cases placed : ∀ s ∈ sources, Placed s
  · obtain ⟨evaluator, journal, honest, ran⟩ := goes placed
    obtain ⟨goes, fails⟩ := rest { w with heap := h₁, evaluator, journal, problems := w.problems ++ found } rfl honest
    rw [Work.ok_bind ran, ← List.append_assoc]
    refine ⟨fun all => goes (fun s member => all s (List.mem_append_right _ member)), fun misplaced => fails (fun other => ?_)⟩
    exact misplaced (List.forall_mem_append.mpr ⟨placed, other⟩)
  · obtain ⟨w', failed⟩ := fails placed
    refine ⟨fun all => absurd (List.forall_mem_append.mp all).1 placed, fun _ => ⟨w', Work.error_bind failed⟩⟩

/-- What is looked up or made first. -/
theorem after {x : Job α} {k : α → Job Unit} {a : α} (ran : ∀ w, w.heap = h → x w = .ok a { w with heap := h₁ })
    (rest : Finds (k a) h₁ found sources h₂) : Finds (x >>= k) h found sources h₂ := by
  intro w here honest
  rw [Work.ok_bind (ran w here)]
  exact rest { w with heap := h₁ } rfl honest

theorem get {k : World → Job Unit} (rest : ∀ w, w.heap = h → Finds (k w) h found sources h₁) :
    Finds (MonadState.get >>= k) h found sources h₁ := fun w here honest => rest w here w here honest

/-- A row of checks, each of which may leave the heap in a state of some kind. -/
theorem forM {check : α → Job Unit} {each : α → List Problem} {reads : α → List String} {leaves : Heap → α → Heap}
    {S : Heap → Prop} {items : List α} (finds : ∀ a ∈ items, ∀ h, S h → Finds (check a) h (each a) (reads a) (leaves h a))
    (keeps : ∀ a ∈ items, ∀ h, S h → S (leaves h a)) (start : S h) :
    Finds (items.forM check) h (items.flatMap each) (items.flatMap reads) (items.foldl leaves h) := by
  induction items generalizing h with
  | nil => exact nothing
  | cons a rest ih =>
    refine (finds a List.mem_cons_self h start).bind (ih ?_ ?_ (keeps a List.mem_cons_self h start))
    · exact fun b member => finds b (List.mem_cons_of_mem a member)
    · exact fun b member => keeps b (List.mem_cons_of_mem a member)

theorem forM_same {check : α → Job Unit} {each : α → List Problem} {reads : α → List String} {items : List α}
    (finds : ∀ a ∈ items, Finds (check a) h (each a) (reads a) h) :
    Finds (items.forM check) h (items.flatMap each) (items.flatMap reads) h := by
  induction items with
  | nil => exact nothing
  | cons a rest ih =>
    exact (finds a List.mem_cons_self).bind (ih (fun b member => finds b (List.mem_cons_of_mem a member)))

/-! The checks. -/

theorem entries {v : Value} {k : Option Entries → Job Unit} (rest : Finds (k (v.entries? h)) h found sources h₁) :
    Finds (entries? v >>= k) h found sources h₁ :=
  after (fun w here => by rw [← here]; rfl) rest

theorem listed {v : Value} {k : Bool → Job Unit} (rest : Finds (k (v.listItems? h).isSome) h found sources h₁) :
    Finds (isList v >>= k) h found sources h₁ :=
  after (fun w here => by rw [← here]; rfl) rest

theorem truth {v : Value} {k : Bool → Job Unit} (rest : Finds (k (v.truth h)) h found sources h₁) :
    Finds (isTrue v >>= k) h found sources h₁ :=
  after (fun w here => by rw [← here]; rfl) rest

theorem text {v : Value} {k : String → Job Unit} (legible : ∃ s, v.plain h = .ok s)
    (rest : Finds (k (Fault.shown h v)) h found sources h₁) : Finds (Job.shown v >>= k) h found sources h₁ := by
  obtain ⟨s, written⟩ := legible
  rw [Fault.shown, written] at rest
  refine after (fun w here => ?_) rest
  subst here
  exact shown_eq written

theorem quote {v : Value} {k : String → Job Unit} (legible : ∃ s, v.quoted h = .ok s)
    (rest : Finds (k (quotedText h v)) h found sources h₁) : Finds (Job.act (Act.quoted v) >>= k) h found sources h₁ := by
  obtain ⟨s, written⟩ := legible
  rw [quotedText, written] at rest
  refine after (fun w here => ?_) rest
  subst here
  exact quoted_eq written

theorem checkVersion (version : Value) : Finds (Document.checkVersion version) h (versionProblems h version) [] h := by
  refine truth ?_
  unfold versionProblems
  cases version.truth h with
  | false => exact report _ _
  | true =>
    simp only [Bool.not_true, Bool.false_eq_true, if_false, if_true]
    cases version with
    | str s =>
      dsimp only
      cases versions.contains s with
      | true => exact nothing
      | false => exact report _ _
    | _ => exact get (fun w here => here ▸ report _ _)

theorem checkFields {names : List String} {text path : String} {entries : List (Value × Value)}
    (legible : ∀ entry ∈ entries, Legible h entry.1) :
    Finds (Document.checkFields names text path entries) h (fieldProblems h names text path entries) [] h := by
  induction entries with
  | nil => exact nothing
  | cons entry rest ih =>
    obtain ⟨key, v⟩ := entry
    have ih := ih (fun entry member => legible entry (List.mem_cons_of_mem _ member))
    have written := (legible _ List.mem_cons_self).1
    unfold Document.checkFields fieldProblems
    dsimp only
    rw [List.filter_cons]
    cases isNamed names key with
    | true => exact ih
    | false => exact Finds.text written ((report _ _).bind ih)

theorem checkHandler (path : String) (handler : Value) :
    Finds (Document.checkHandler path handler) h (handlerProblems path handler) (handlerSources handler) h := by
  cases handler with
  | str source =>
    unfold Document.checkHandler handlerProblems handlerSources
    dsimp only
    split
    · exact report _ _
    · rintro w rfl honest
      obtain ⟨evaluator, journal, later, -, compiled⟩ := Job.compile_honest honest source
      have attempted : Job.attempt (Job.compile source) w =
          .ok ((Script.compile source).mapError (Job.refusal source)) { w with evaluator, journal } := by
        rw [Job.attempt, compiled]
        cases (Script.compile source).mapError (Job.refusal source) <;> rfl
      rw [Work.ok_bind attempted]
      rw [List.forall_mem_singleton, Placed]
      cases made : Script.compile source with
      | ok program =>
        refine ⟨fun _ => ⟨evaluator, journal, later, ?_⟩, fun misplaced => absurd nofun misplaced⟩
        rw [List.append_nil]
        rfl
      | error fault =>
        cases fault with
        | refused refusal => exact ⟨fun _ => ⟨evaluator, journal, later, rfl⟩, fun misplaced => absurd nofun misplaced⟩
        | misplaced => exact ⟨fun placed => absurd rfl placed, fun _ => ⟨_, rfl⟩⟩
  | _ => exact report _ _

/-- The checks of the definition of a step, whose entries are known. -/
theorem checkEntries (path : String) {entries : Entries} (legible : ∀ entry ∈ entries.toList, Legible h entry.1) :
    Finds (do
      Document.checkFields stepFields "unknown field" path entries.toList
      Document.checkHandler path (valueOf entries "handler")
      match Entries.named? entries "globals" with
      | none => return ()
      | some globals =>
        if (← Document.entries? globals).isNone then Job.report "'globals' must be a dictionary" path) h
      (fieldProblems h stepFields "unknown field" path entries.toList ++ handlerProblems path (valueOf entries "handler") ++
        globalsProblems h path entries) (handlerSources (valueOf entries "handler")) h := by
  have globals : Finds (match Entries.named? entries "globals" with
      | none => return ()
      | some globals => do
        if (← Document.entries? globals).isNone then Job.report "'globals' must be a dictionary" path) h
      (globalsProblems h path entries) [] h := by
    unfold globalsProblems
    cases Entries.named? entries "globals" with
    | none => exact nothing
    | some globals =>
      refine Finds.entries ?_
      dsimp only
      cases (globals.entries? h).isNone with
      | true => exact report _ _
      | false => exact nothing
  rw [List.append_assoc, ← List.append_nil (handlerSources (valueOf entries "handler"))]
  exact (checkFields legible).bind ((checkHandler path (valueOf entries "handler")).bind globals)

theorem definition_text {a : Addr} {id source : String} {k : Value → Job Unit} (present : id.isEmpty = false)
    (rest : Finds (k (.ref h.objects.size)) (expanded a h (.str id, .str source)) found sources h₁) :
    Finds (Document.definition a (.str id) (.str source) >>= k) h found sources h₁ :=
  after (fun w here => here ▸ definition_writes present w) rest

theorem definition_other {a : Addr} {id config : Value} {k : Value → Job Unit} (other : ∀ source, config ≠ .str source)
    (rest : Finds (k config) h found sources h₁) : Finds (Document.definition a id config >>= k) h found sources h₁ := by
  rw [definition_kept other, pure_bind]
  exact rest

theorem checkStep {a : Addr} {id config : Value} (inside : a < h.objects.size)
    (legible : ∀ key ∈ definitionKeys h (id, config), Legible h key) :
    Finds (Document.checkStep a id config) h (stepProblems h (id, config)) (stepSources h (id, config))
      (expanded a h (id, config)) := by
  refine text (legible id List.mem_cons_self).1 ?_
  cases id with
  | str id =>
    cases empty : id.isEmpty with
    | true =>
      obtain rfl : id = "" := by simpa using empty
      rw [expanded_nameless]
      exact report _ _
    | false =>
      split
      · next same =>
        cases same
        cases empty
      · simp only [stepProblems, stepSources, empty, Bool.false_eq_true, if_false]
        by_cases text : ∃ source, config = .str source
        · obtain ⟨source, rfl⟩ := text
          refine definition_text empty (Finds.entries ?_)
          have made : (Value.ref h.objects.size).entries? (expanded a h (.str id, .str source)) =
              some #[(.str "handler", .str source)] := by
            simp only [Value.entries?, Heap.object_of_getElem? (expanded_made inside empty)]
          have written : ∀ entry ∈ (#[(.str "handler", .str source)] : Entries).toList,
              Legible (expanded a h (.str id, .str source)) entry.1 := by
            intro entry member
            obtain rfl := List.mem_singleton.mp member
            exact legible_text _ "handler"
          have finds := checkEntries s!"steps.{id}" written
          rw [handler_only] at finds
          rw [made, definition?]
          dsimp only
          rw [handler_only]
          exact finds
        · have other : ∀ source, config ≠ .str source := fun source same => text ⟨source, same⟩
          rw [expanded_other other, definition?_other other]
          refine definition_other other (Finds.entries ?_)
          cases made : config.entries? h with
          | none => exact report _ _
          | some entries =>
            exact checkEntries _ (fun entry member => legible entry.1 (mem_definitionKeys made member))
      · next other => exact absurd rfl (other id)
  | _ => exact quote (legible _ List.mem_cons_self).2 (report _ _)

theorem refusal (c : Bool) (message path : String) :
    Finds (if !c then Job.report message path else pure ()) h (if c then [] else [{ message, path }]) [] h := by
  cases c with
  | true => exact nothing
  | false => exact report _ _

theorem checkSchema {id config : Value} (legible : ∀ key ∈ definitionKeys h (id, config), Legible h key) :
    Finds (Document.checkSchema id config) h (schemaProblems h (id, config)) [] h := by
  refine text (legible id List.mem_cons_self).1 (listed ?_)
  unfold schemaProblems
  dsimp only
  cases (config.listItems? h).isSome with
  | true => exact nothing
  | false =>
    simp only [Bool.false_eq_true, if_false]
    refine Finds.entries ?_
    cases made : config.entries? h with
    | none => exact report _ _
    | some entries =>
      have written : ∀ entry ∈ entries.toList, Legible h entry.1 :=
        fun entry member => legible entry.1 (mem_definitionKeys made member)
      dsimp only
      rw [List.append_assoc]
      refine (checkFields written).bind (listed ?_)
      cases ((valueOf entries "steps").listItems? h).isSome with
      | true => exact refusal _ _ _
      | false => exact (report _ _).bind (refusal _ _ _)

theorem missing {name : String} {check : Value → Job Unit} {v : Value} (absent : v.truth h = false) :
    Finds (checkSection name check v) h [{ message := s!"'{name}' field is required and must not be empty" }] [] h := by
  refine truth ?_
  rw [absent]
  exact report _ _

theorem present {name : String} {check : Value → Job Unit} {v : Value} (present : v.truth h = true)
    (finds : Finds (check v) h found sources h₁) : Finds (checkSection name check v) h found sources h₁ := by
  refine truth ?_
  rw [present]
  exact finds

/-- The section of the schemas leaves the heap as it is. -/
theorem checkSchemas {v : Value} (legible : ∀ key ∈ (members h v).flatMap (definitionKeys h), Legible h key) :
    Finds (checkSection "schemas" Document.checkSchemas v) h (schemasProblems h v) [] h := by
  unfold schemasProblems sectionProblems
  cases given : v.truth h with
  | false => exact missing given
  | true =>
    refine present given (Finds.entries ?_)
    simp only [if_true]
    cases made : v.entries? h with
    | none => exact report _ _
    | some entries =>
      have each : ∀ entry ∈ entries.toList, Finds (Document.checkSchema entry.1 entry.2) h (schemaProblems h entry) [] h := by
        intro entry member
        have there := mem_members.mpr ⟨entries, made, member⟩
        exact checkSchema (fun key inside => legible key (List.mem_flatMap.mpr ⟨entry, there, inside⟩))
      have none : entries.toList.flatMap (fun _ => ([] : List String)) = [] := List.flatMap_eq_nil_iff.mpr (fun _ _ => rfl)
      rw [← none]
      exact forM_same each

end Finds

end Document

end Workflow
