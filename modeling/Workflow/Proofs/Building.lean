import Workflow.Proofs.Acceptance
import Workflow.Proofs.Independence

/-! Executors that are built from documents. What is built holds the steps that the document declares, and the schemas, if each of
them is accepted when it is registered alone. It is the same whether or not the steps have been written out. -/

namespace Workflow
open Engine (Work)
open Script (Act Addr Entries Heap Object Value)

/-- A world with some steps and no schema. -/
def World.holding (w : World) (steps : List Step) : World := { w with registry := { steps }, listeners := [] }

/-- What comes to be registered, and what is wrong. -/
def World.enrolling (w : World) (steps : List Step) (schemas : List RegisteredSchema) (found : List Problem) : World :=
  { w with
    registry := { steps := w.registry.steps ++ steps, schemas := w.registry.schemas ++ schemas }
    problems := w.problems ++ found }

namespace World
variable {w w' : World} {steps more : List Step} {schemas others : List RegisteredSchema} {found further : List Problem}

theorem Learns.enrolling (learns : w.Learns w') :
    (w.enrolling steps schemas found).Learns (w'.enrolling steps schemas found) := by
  refine ⟨learns.heap, learns.honest, ?_, learns.listeners, ?_⟩
  · simp only [World.enrolling, learns.registry]
  · simp only [World.enrolling, learns.problems]

theorem enrolling_nothing (w : World) : w.enrolling [] [] [] = w := by simp only [enrolling, List.append_nil]

theorem enrolling_enrolling : (w.enrolling steps schemas found).enrolling more others further =
    w.enrolling (steps ++ more) (schemas ++ others) (found ++ further) := by simp only [enrolling, List.append_assoc]

end World

namespace Executor

theorem checkKey_ok {w w' : World} {v : Value} (ran : Job.act (Act.checkKey v) w = .ok () w') : w' = w := by
  simp only [Job.act, Act.checkKey, Bind.bind, EStateM.bind, Script.get_result] at ran
  cases named : v.unhashable? w.heap with
  | some name =>
    rw [named] at ran
    cases ran
  | none =>
    rw [named] at ran
    cases ran
    rfl

/-- A schema that is stored has been normalised. -/
theorem register_normalises {w w' : World} {id items space : Value} (ran : register id items space w = .ok () w') :
    ∃ schema w₁, normalise id items space w = .ok schema w₁ ∧
      w'.registry.schemas = w.registry.schemas ++ [⟨id, schema, space⟩] := by
  rw [register_eq] at ran
  obtain ⟨schema, w₁, examined, ran⟩ := Work.bind_ok ran
  obtain ⟨_, w₂, stored, announced⟩ := Work.bind_ok ran
  cases stored
  have before := Along.ok (examine_apart id items space) examined
  have after := Along.ok (announce_apart id space) announced
  have schemas : w'.registry.schemas = w.registry.schemas ++ [⟨id, schema, space⟩] := by
    rw [after.registry]
    simp only [World.storing, before.registry]
  obtain ⟨_, w₂, keyed, checked⟩ := Work.bind_ok examined
  obtain rfl := checkKey_ok keyed
  obtain ⟨_, w₃, got, checked⟩ := Work.bind_ok checked
  cases got
  cases known : w₂.registry.schema? id with
  | some s =>
    rw [known] at checked
    cases checked
  | none =>
    rw [known] at checked
    obtain ⟨found, w₃, normal, checked⟩ := Work.bind_ok checked
    obtain ⟨_, w₄, -, checked⟩ := Work.bind_ok checked
    obtain ⟨_, w₅, -, checked⟩ := Work.bind_ok checked
    cases checked
    exact ⟨schema, w₃, normal, schemas⟩

end Executor

namespace Document

/-! What a document declares. -/

def textOf : Value → String
  | .str s => s
  | _ => ""

/-- The step that an entry of the steps declares. -/
def stepOf (h : Heap) (entry : Value × Value) : Step :=
  let config := (definition? h entry.2).getD #[]
  { id := textOf entry.1
    handler := .source (textOf (valueOf config "handler"))
    input := valueOf config "input"
    globals := Entries.insertAll #[] (((valueOf config "globals").entries? h).getD #[]) }

/-- The items of a schema and its prefix. -/
def schemaParts (h : Heap) (config : Value) : Value × Value :=
  if (config.listItems? h).isSome then (config, .nothing)
  else (valueOf ((config.entries? h).getD #[]) "steps", valueOf ((config.entries? h).getD #[]) "prefix")

/-- What is wrong with a schema when it is registered in some world. -/
def refusal? (w : World) (entry : Value × Value) : Option Problem :=
  match registerSchema entry.1 entry.2 w with
  | .ok _ _ => none
  | .error fault later => some { message := fault.message later.heap, path := s!"schemas.{Fault.shown later.heap entry.1}" }

/-- A schema is registered in some world, or it is refused as a part of the setup. -/
def Settles (w : World) (entry : Value × Value) : Prop :=
  ∀ fault w', registerSchema entry.1 entry.2 w = .error fault w' → fault.isConfiguration = true

/-- What an entry of the schemas is stored as. -/
structure StoredAs (w : World) (entry : Value × Value) (s : RegisteredSchema) : Prop where
  id : s.id = entry.1
  space : s.space = (schemaParts w.heap entry.2).2
  items : ∃ w', normalise entry.1 (schemaParts w.heap entry.2).1 s.space w = .ok s.items w'

/-! Parts of documents. -/

theorem dict_of_entries {h : Heap} {v : Value} {config : Entries} (made : v.entries? h = some config) :
    ∃ a, v = .ref a ∧ h.objects[a]? = some (.dict config) := by
  cases v with
  | ref a =>
    refine ⟨a, rfl, ?_⟩
    simp only [Value.entries?, Heap.object] at made
    cases there : h.objects[a]? with
    | none =>
      rw [there] at made
      cases made
    | some o =>
      rw [there] at made
      cases o <;> cases made
      rfl
  | _ => cases made

theorem entries_grown {h k : Heap} {v : Value} {config : Entries} (grows : h.Extends k) (made : v.entries? h = some config) :
    v.entries? k = some config := by
  obtain ⟨a, rfl, found⟩ := dict_of_entries made
  simp only [Value.entries?, Heap.object_of_getElem? (grows a _ found)]

section
variable {w : World} {v : Value} {config : Entries} (made : v.entries? w.heap = some config)
include made

theorem part_eq {name : String} {x : Value} (named : Entries.named? config name = some x) : part v name w = .ok x w := by
  obtain ⟨a, rfl, found⟩ := dict_of_entries made
  have there : Entries.get? config (.str name) = some x := named
  simp only [part, Job.act, Act.subscript, Act.object, Act.checkKey, Value.unhashable?, Bind.bind, EStateM.bind,
    Script.get_result, Heap.object_of_getElem? found, Pure.pure, EStateM.pure, there]

theorem optionalPart_eq (name : String) : optionalPart v name w = .ok (valueOf config name) w := by
  simp only [optionalPart, entries?, Bind.bind, EStateM.bind, Script.get_result, made]
  rfl

omit made in
/-- A value that is not nothing is there. -/
theorem named_of_valueOf {name : String} (present : valueOf config name ≠ .nothing) :
    Entries.named? config name = some (valueOf config name) := by
  cases found : Entries.named? config name with
  | none => exact absurd (by rw [valueOf, found]; rfl) present
  | some x => rw [valueOf, found, Option.getD_some]

/-- A part that has entries. -/
theorem sectionEntries_eq {name : String} {inner : Entries} (opened : (valueOf config name).entries? w.heap = some inner) :
    sectionEntries v name w = .ok inner w := by
  have present : valueOf config name ≠ .nothing := by
    intro none
    rw [none] at opened
    cases opened
  rw [sectionEntries, Work.ok_bind (part_eq made (named_of_valueOf present))]
  simp only [entries?, Bind.bind, EStateM.bind, Script.get_result, opened]
  rfl

end

theorem single_eq (name : String) (v : Value) (w : World) :
    single name v w = .ok (.ref w.heap.objects.size) { w with heap := (w.heap.alloc (.dict #[(.str name, v)])).2 } := rfl

theorem single_made (h : Heap) (name : String) (v : Value) :
    (Value.ref h.objects.size).entries? (h.alloc (.dict #[(.str name, v)])).2 = some #[(.str name, v)] := by
  simp only [Value.entries?, Heap.object_of_getElem? (h.alloc_found _)]

/-! Steps. -/

/-- What is bound by the globals of a definition, which may be missing. -/
def Binds (h : Heap) (globals : Value) (bound : Entries) : Prop :=
  globals = .nothing ∧ bound = #[] ∨ ∃ inner, globals.entries? h = some inner ∧ bound = Entries.insertAll #[] inner

theorem Binds.grown {h k : Heap} {globals : Value} {bound : Entries} (binds : Binds h globals bound) (grows : h.Extends k) :
    Binds k globals bound :=
  binds.imp_right (fun ⟨inner, opened, same⟩ => ⟨inner, entries_grown grows opened, same⟩)

/-- In some heap, an entry of the steps declares a step. -/
structure Declares (k : Heap) (entry : Value × Value) (s : Step) : Prop where
  id : entry.1 = .str s.id
  present : s.id.isEmpty = false
  definition : ∃ config source, definition? k entry.2 = some config ∧ valueOf config "handler" = .str source ∧
    s.handler = .source source ∧ s.input = valueOf config "input" ∧ Binds k (valueOf config "globals") s.globals

theorem Declares.grown {h k : Heap} {entry : Value × Value} {s : Step} (declares : Declares h entry s) (grows : h.Extends k) :
    Declares k entry s := by
  obtain ⟨id, present, config, source, made, handled, handler, input, globals⟩ := declares
  refine ⟨id, present, config, source, ?_, handled, handler, input, globals.grown grows⟩
  by_cases text : ∃ source, entry.2 = .str source
  · obtain ⟨source, same⟩ := text
    rw [same] at made ⊢
    exact made
  · have other : ∀ source, entry.2 ≠ .str source := fun source same => text ⟨source, same⟩
    rw [definition?_other other] at made ⊢
    exact entries_grown grows made

/-- The step of an entry that is in order is declared wherever the parts of its document are, even when it has been written
out. -/
theorem StepInOrder.declares {h k : Heap} {S : Addr → Prop} {entry entry' : Value × Value} (ordered : StepInOrder h entry)
    (shares : h.Shares S k) (among : entry.2.Among S) (expands : Expands h k entry entry') :
    Declares k entry' (stepOf h entry) := by
  obtain ⟨id, config, source, named, present, made, handled, mapped⟩ := ordered
  have same : definition? k entry'.2 = definition? h entry.2 ∧ entry'.1 = entry.1 := by
    cases expands with
    | same => exact ⟨definition?_shared shares among, rfl⟩
    | text id fresh there => exact ⟨Expands.definition there, rfl⟩
  have step : stepOf h entry = Step.mk id (.source source) (valueOf config "input")
      (Entries.insertAll #[] (((valueOf config "globals").entries? h).getD #[])) := by
    simp only [stepOf, named, made, handled, Option.getD_some, textOf]
  rw [step]
  refine ⟨same.2.trans named, present, config, source, same.1.trans made, handled, rfl, rfl, ?_⟩
  cases found : Entries.named? config "globals" with
  | none =>
    rw [valueOf, found]
    exact .inl ⟨rfl, rfl⟩
  | some globals =>
    rw [valueOf, found, Option.getD_some]
    obtain ⟨inner, opened⟩ := Option.isSome_iff_exists.mp (mapped globals found)
    have inside : globals.Among S := Value.Among.named (definition_parts shares among made) found
    rw [opened]
    exact .inr ⟨inner, (shares.entries? inside).trans opened, rfl⟩

/-- The parts of a step make the step. -/
theorem make_runs {w : World} {s : Step} {source : String} {globals : Value} (present : s.id.isEmpty = false)
    (handler : s.handler = .source source) (binds : Binds w.heap globals s.globals) :
    Step.make (.str s.id) (.str source) s.input globals w = .ok s w := by
  obtain ⟨id, _, input, bound⟩ := s
  cases handler
  simp only at present binds
  unfold Step.make
  simp only [present, Bool.false_eq_true, if_false, pure_bind]
  obtain ⟨rfl, rfl⟩ | ⟨inner, opened, rfl⟩ := binds
  · rfl
  · obtain ⟨a, rfl, found⟩ := dict_of_entries opened
    have object := Heap.object_of_getElem? found
    have taken : Job.act (Act.entriesOf Script.interpreter (.ref a)) w = .ok inner w := by
      simp only [Job.act, Act.entriesOf, Act.object, Bind.bind, EStateM.bind, object]
      rfl
    have truth : (Value.ref a).truth w.heap = !inner.isEmpty := by simp only [Value.truth, object]
    cases empty : inner.isEmpty with
    | true =>
      obtain rfl : inner = #[] := Array.isEmpty_iff.mp empty
      simp only [Bind.bind, EStateM.bind, Script.get_result, truth]
      rfl
    | false =>
      simp only [Bind.bind, EStateM.bind, Script.get_result, truth, empty, Bool.not_false, if_true, taken]
      rfl

/-- A definition is a mapping, or becomes one. -/
theorem buildStep_opens {w : World} {id config : Value} {inner : Entries} (made : definition? w.heap config = some inner) :
    ∃ v w₁, w.Learns w₁ ∧ v.entries? w₁.heap = some inner ∧ buildStep id config w = (do
      let handler ← part v "handler"
      let input ← optionalPart v "input"
      let globals ← optionalPart v "globals"
      Executor.addStep (← Step.make id handler input globals)) w₁ := by
  by_cases text : ∃ source, config = .str source
  · obtain ⟨source, rfl⟩ := text
    cases made
    exact ⟨.ref w.heap.objects.size, _, .of_heap (.alloc w.heap _), single_made _ _ _, Work.ok_bind (single_eq _ _ w)⟩
  · have other : ∀ source, config ≠ .str source := fun source same => text ⟨source, same⟩
    rw [definition?_other other] at made
    refine ⟨config, w, World.Learns.lasting.refl w, made, ?_⟩
    cases config with
    | str source => exact absurd rfl (other source)
    | _ => rfl

/-- A step that is declared is registered, if it is new. -/
theorem buildStep_runs {w : World} {entry : Value × Value} {s : Step} (declares : Declares w.heap entry s)
    (fresh : w.registry.step? s.id = none) :
    ∃ w', buildStep entry.1 entry.2 w = .ok () w' ∧ (w.enrolling [s] [] []).Learns w' := by
  obtain ⟨id, present, config, source, made, handled, handler, input, binds⟩ := declares
  obtain ⟨v, w₁, learns, opened, same⟩ := buildStep_opens made
  have named : Entries.named? config "handler" = some (.str source) := by
    rw [← handled]
    exact named_of_valueOf (by rw [handled]; nofun)
  have fresh : w₁.registry.step? s.id = none := by rw [learns.registry, fresh]
  have added : ∃ w', Executor.addStep s w₁ = .ok () w' ∧ (w₁.enrolling [s] [] []).Learns w' := by
    simp only [Executor.addStep, Bind.bind, EStateM.bind, Script.get_result, fresh]
    refine ⟨_, rfl, .refl _, fun honest => honest, ?_, rfl, ?_⟩
    · simp only [World.enrolling, List.append_nil]
    · simp only [World.enrolling, List.append_nil]
  obtain ⟨w', added, more⟩ := added
  refine ⟨w', ?_, World.Learns.lasting.trans learns.enrolling more⟩
  rw [id, same, Work.ok_bind (part_eq opened named), Work.ok_bind (optionalPart_eq opened "input"),
    Work.ok_bind (optionalPart_eq opened "globals"), ← input,
    Work.ok_bind (make_runs present handler (binds.grown learns.heap)), added]

/-- No step has the id of another one, and none is known. -/
structure News (known row : List Step) : Prop where
  fresh : ∀ s ∈ row, known.find? (·.id == s.id) = none
  distinct : row.Pairwise (fun s t => s.id ≠ t.id)

/-- The steps that are declared are registered in their order. -/
theorem buildSteps_run {h : Heap} {w : World} {row : List (Value × Value)} {steps : List Step}
    (each : List.Forall₂ (Declares h) row steps) (grows : h.Extends w.heap) (news : News w.registry.steps steps) :
    ∃ w', (row.forM fun entry => buildStep entry.1 entry.2) w = .ok () w' ∧ (w.enrolling steps [] []).Learns w' := by
  induction each generalizing w with
  | nil => exact ⟨w, rfl, by rw [w.enrolling_nothing]; exact World.Learns.lasting.refl w⟩
  | @cons entry s row steps declares rest ih =>
    obtain ⟨fresh, others⟩ := List.forall_mem_cons.mp news.fresh
    obtain ⟨apart, distinct⟩ := List.pairwise_cons.mp news.distinct
    obtain ⟨w₁, ran, learns⟩ := buildStep_runs (declares.grown grows) fresh
    have known : w₁.registry.steps = w.registry.steps ++ [s] := by rw [learns.registry]; rfl
    have news : News w₁.registry.steps steps := by
      refine ⟨fun t member => ?_, distinct⟩
      rw [known, List.find?_append, others t member, List.find?_singleton]
      simp [apart t member]
    obtain ⟨w', goes, more⟩ := ih (grows.trans learns.heap) news
    refine ⟨w', (Work.ok_bind ran).trans goes, ?_⟩
    have all := World.Learns.lasting.trans learns.enrolling more
    rwa [World.enrolling_enrolling] at all

/-! Schemas. -/

/-- What stands in front of the ids of steps is a text, or there is none. -/
theorem prefix_of_isSpace {v : Value} (spaced : isSpace v = true) : ∃ space, v = prefixValue space := by
  cases v with
  | nothing => exact ⟨none, rfl⟩
  | str s => exact ⟨some s, rfl⟩
  | _ => cases spaced

/-- A schema that is given by a mapping is registered with its parts. -/
theorem registerParts_eq {w : World} {id v : Value} {config : Entries} (made : v.entries? w.heap = some config)
    (present : valueOf config "steps" ≠ .nothing) : (do
      let items ← part v "steps"
      Executor.register id items (← optionalPart v "prefix")) w =
        Executor.register id (valueOf config "steps") (valueOf config "prefix") w := by
  rw [Work.ok_bind (part_eq made (named_of_valueOf present)), Work.ok_bind (optionalPart_eq made "prefix")]

/-- A schema that is in order is registered with its items and its prefix. -/
theorem registerSchema_opens {h : Heap} {S : Addr → Prop} {entry : Value × Value} (closed : h.Shares S h)
    (ordered : SchemaInOrder h entry) (among : entry.2.Among S) :
    ∃ items space, schemaParts h entry.2 = (items, prefixValue space) ∧ items.Among S ∧
      ∀ w : World, h.Shares S w.heap → ∃ w₁, w.Learns w₁ ∧
        registerSchema entry.1 entry.2 w = Executor.register entry.1 items (prefixValue space) w₁ := by
  obtain ⟨id, config⟩ := entry
  obtain ⟨-, form⟩ := ordered
  have looked (w : World) (shares : h.Shares S w.heap) : isList config w = .ok (config.listItems? h).isSome w := by
    rw [← shares.listItems? among]
    rfl
  cases row : (config.listItems? h).isSome with
  | true =>
    refine ⟨config, none, by rw [schemaParts, if_pos row]; rfl, among, fun w shares => ?_⟩
    refine ⟨_, .of_heap (.alloc w.heap (.dict #[(.str "steps", config)])), ?_⟩
    have present : valueOf #[(.str "steps", config)] "steps" ≠ .nothing := by
      intro none
      rw [show config = .nothing from none] at row
      cases row
    rw [registerSchema, Work.ok_bind ((looked w shares).trans (by rw [row])), if_pos rfl,
      Work.ok_bind (single_eq "steps" config w)]
    exact registerParts_eq (w := { w with heap := (w.heap.alloc (.dict #[(.str "steps", config)])).2 })
      (single_made w.heap "steps" config) present
  | false =>
    obtain ⟨inner, made, listed, spaced⟩ := form.resolve_left (by rw [row]; nofun)
    obtain ⟨space, same⟩ := prefix_of_isSpace spaced
    have parts := entries_among closed among made
    refine ⟨valueOf inner "steps", space, ?_, valueOf_among parts "steps",
      fun w shares => ⟨w, World.Learns.lasting.refl w, ?_⟩⟩
    · rw [schemaParts, if_neg (by rw [row]; nofun), made, Option.getD_some, same]
    · have present : valueOf inner "steps" ≠ .nothing := by
        intro none
        rw [none] at listed
        cases listed
      rw [registerSchema, Work.ok_bind ((looked w shares).trans (by rw [row])), if_neg Bool.false_ne_true, pure_bind, ← same]
      exact registerParts_eq ((shares.entries? among).trans made) present

section
variable {h : Heap} {S : Addr → Prop} {steps : List Step} {alone : World} {entry : Value × Value}

/-- In which worlds a schema is registered as alone: those with the same parts and the same steps, in which its id is free. -/
structure Like (S : Addr → Prop) (h : Heap) (steps : List Step) (entry : Value × Value) (w : World) : Prop where
  shares : h.Shares S w.heap
  honest : w.evaluator.Honest
  awaits : w.registry.Awaits steps entry.1

/-- What comes of a schema is the same in all those worlds: it is stored, or it is refused. -/
theorem registerSchema_determined (closed : h.Shares S h) (ordered : SchemaInOrder h entry) (key : entry.1.Among S)
    (among : entry.2.Among S) (here : alone.heap = h) (like : Like S h steps entry alone)
    (settles : Settles alone entry) :
    (∃ s, StoredAs alone entry s ∧ ∀ w, Like S h steps entry w →
      ∃ w', registerSchema entry.1 entry.2 w = .ok () w' ∧ (w.storing s).Learns w') ∨
    ∃ f, f.ToldAlike S h ∧ ∀ w, Like S h steps entry w → ∃ w', registerSchema entry.1 entry.2 w = .error f w' ∧ w.Learns w' := by
  obtain ⟨items, space, parts, inside, opens⟩ := registerSchema_opens closed ordered among
  have onward (w : World) (like : Like S h steps entry w) : ∃ w₁, w.Learns w₁ ∧ Like S h steps entry w₁ ∧
      registerSchema entry.1 entry.2 w = Executor.register entry.1 items (prefixValue space) w₁ := by
    obtain ⟨w₁, learns, same⟩ := opens w like.shares
    refine ⟨w₁, learns, ⟨like.shares.grown (.refl h) learns.heap, learns.honest like.honest, ?_⟩, same⟩
    rw [learns.registry]
    exact like.awaits
  obtain ⟨schema, runs⟩ | ⟨f, told, fails⟩ | fails :=
    @Executor.register_determined S h steps entry.1 items space key inside
  · refine .inl ⟨⟨entry.1, schema, prefixValue space⟩, ⟨rfl, by rw [here, parts], ?_⟩, fun w like => ?_⟩
    · obtain ⟨w₁, learns, later, same⟩ := onward alone like
      obtain ⟨w', ran, more⟩ := runs w₁ later.shares later.honest later.awaits
      obtain ⟨schema', w₂, normal, stored⟩ := Executor.register_normalises ran
      obtain rfl : schema = schema' := by
        rw [more.registry] at stored
        cases List.append_cancel_left stored
        rfl
      rw [here, parts]
      have determined : Job.Alike S h (Registry.Awaits steps entry.1) (normalise entry.1 items (prefixValue space)) :=
        Job.normalise_determined key inside
      exact determined.alike ⟨like.shares, like.honest, like.awaits⟩ ⟨later.shares, later.honest, later.awaits⟩ normal
    obtain ⟨w₁, learns, like, same⟩ := onward w like
    obtain ⟨w', ran, more⟩ := runs w₁ like.shares like.honest like.awaits
    refine ⟨w', same.trans ran, World.Learns.lasting.trans ?_ more⟩
    refine ⟨learns.heap, learns.honest, ?_, learns.listeners, learns.problems⟩
    simp only [World.storing, learns.registry]
  · refine .inr ⟨f, told, fun w like => ?_⟩
    obtain ⟨w₁, learns, like, same⟩ := onward w like
    obtain ⟨w', ran, more⟩ := fails w₁ like.shares like.honest like.awaits
    exact ⟨w', same.trans ran, World.Learns.lasting.trans learns more⟩
  · obtain ⟨w₁, learns, like, same⟩ := onward alone like
    obtain ⟨f, w', ran, other⟩ := fails w₁ like.shares like.honest like.awaits
    have known := settles f w' (same.trans ran)
    rw [other] at known
    cases known

/-- Building a schema stores what it is stored as alone, or notes what is wrong with it alone. -/
theorem buildSchema_runs (closed : h.Shares S h) (ordered : SchemaInOrder h entry) (key : entry.1.Among S)
    (among : entry.2.Among S) (here : alone.heap = h) (like : Like S h steps entry alone)
    (settles : Settles alone entry) :
    ∃ stored, (∀ s ∈ stored, s.id = entry.1) ∧ (refusal? alone entry = none → List.Forall₂ (StoredAs alone) [entry] stored) ∧
      ∀ w, Like S h steps entry w → ∃ w', buildSchema entry.1 entry.2 w = .ok () w' ∧
        (w.enrolling [] stored (refusal? alone entry).toList).Learns w' := by
  obtain ⟨s, storedAs, runs⟩ | ⟨f, told, fails⟩ := registerSchema_determined closed ordered key among here like settles
  · obtain ⟨w₁, ran, learns⟩ := runs alone like
    have accepted : refusal? alone entry = none := by rw [refusal?, ran]
    refine ⟨[s], List.forall_mem_singleton.mpr storedAs.id, fun _ => .cons storedAs .nil, fun w like => ?_⟩
    obtain ⟨w', ran, more⟩ := runs w like
    refine ⟨w', ?_, ?_⟩
    · simp only [buildSchema, Job.attempt, Bind.bind, EStateM.bind, ran]
      rfl
    · rw [accepted]
      simpa [World.enrolling, World.storing] using more
  · obtain ⟨w₁, ran, learns⟩ := fails alone like
    obtain ⟨configuration, same⟩ := told
    obtain ⟨⟨shown, written⟩, -⟩ := ordered
    have refused (w : World) (shares : h.Shares S w.heap) :
        f.message w.heap = f.message h ∧ Fault.shown w.heap entry.1 = shown := by
      refine ⟨same _ shares, ?_⟩
      rw [shares.shown key, Fault.shown, written]
    have shares := like.shares.grown (.refl h) learns.heap
    have refusal : refusal? alone entry = some { message := f.message h, path := s!"schemas.{shown}" } := by
      rw [refusal?, ran]
      simp only [refused w₁ shares]
    refine ⟨[], List.forall_mem_nil _, fun none => ?_, fun w like => ?_⟩
    · rw [refusal] at none
      cases none
    · obtain ⟨w', ran, more⟩ := fails w like
      have shares := like.shares.grown (.refl h) more.heap
      have text : Job.shown entry.1 w' = .ok shown w' := shown_eq ((shares.plain key).trans written)
      refine ⟨w'.enrolling [] [] [{ message := f.message h, path := s!"schemas.{shown}" }], ?_, ?_⟩
      · simp only [buildSchema, Job.attempt, Bind.bind, EStateM.bind, ran, configuration, if_true, Script.get_result, text,
          (refused w' shares).1]
        rw [World.enrolling, List.append_nil, List.append_nil]
        rfl
      · rw [refusal]
        exact more.enrolling

/-- Schemas that are in order, among some objects, and each of them registered or refused as a part of the setup. -/
structure Presents (S : Addr → Prop) (h : Heap) (alone : World) (row : List (Value × Value)) : Prop where
  ordered : ∀ entry ∈ row, SchemaInOrder h entry
  among : ∀ entry ∈ row, entry.1.Among S ∧ entry.2.Among S
  settles : ∀ entry ∈ row, Settles alone entry
  distinct : row.Pairwise (fun e f => e.1.sameKey f.1 = false)

/-- The schemas are registered one after the other, each of them as if it were alone. -/
theorem buildSchemas_run {row : List (Value × Value)} (closed : h.Shares S h) (here : alone.heap = h)
    (honest : alone.evaluator.Honest) (bare : alone.registry = { steps }) (presents : Presents S h alone row) :
    ∃ stored, (row.filterMap (refusal? alone) = [] → List.Forall₂ (StoredAs alone) row stored) ∧
      ∀ w, h.Shares S w.heap → w.evaluator.Honest → (∀ entry ∈ row, w.registry.Awaits steps entry.1) →
        ∃ w', (row.forM fun entry => buildSchema entry.1 entry.2) w = .ok () w' ∧
          (w.enrolling [] stored (row.filterMap (refusal? alone))).Learns w' := by
  induction row with
  | nil =>
    refine ⟨[], fun _ => .nil, fun w _ _ _ => ⟨w, rfl, ?_⟩⟩
    rw [List.filterMap_nil, w.enrolling_nothing]
    exact World.Learns.lasting.refl w
  | cons entry row ih =>
    obtain ⟨first, ordered⟩ := List.forall_mem_cons.mp presents.ordered
    obtain ⟨⟨key, inside⟩, among⟩ := List.forall_mem_cons.mp presents.among
    obtain ⟨settled, settles⟩ := List.forall_mem_cons.mp presents.settles
    obtain ⟨apart, distinct⟩ := List.pairwise_cons.mp presents.distinct
    have like : Like S h steps entry alone := ⟨here ▸ closed, honest, by rw [bare]; exact ⟨rfl, rfl⟩⟩
    obtain ⟨stored, named, kept, runs⟩ := buildSchema_runs closed first key inside here like settled
    obtain ⟨others, all, goes⟩ := ih ⟨ordered, among, settles, distinct⟩
    have found : (entry :: row).filterMap (refusal? alone) = (refusal? alone entry).toList ++ row.filterMap (refusal? alone) := by
      cases refused : refusal? alone entry with
      | none => rw [List.filterMap_cons_none refused, Option.toList_none, List.nil_append]
      | some problem => rw [List.filterMap_cons_some refused, Option.toList_some, List.singleton_append]
    refine ⟨stored ++ others, fun none => ?_, fun w shares honest awaits => ?_⟩
    · rw [found] at none
      obtain ⟨accepted, rest⟩ := List.append_eq_nil_iff.mp none
      exact List.rel_append (kept (Option.toList_eq_nil_iff.mp accepted)) (all rest)
    · obtain ⟨awaited, awaits⟩ := List.forall_mem_cons.mp awaits
      obtain ⟨w₁, ran, learns⟩ := runs w ⟨shares, honest, awaited⟩
      -- The ids that come later are still free.
      have later : ∀ other ∈ row, w₁.registry.Awaits steps other.1 := by
        intro other member
        obtain ⟨same, free⟩ := awaits other member
        rw [learns.registry]
        refine ⟨(List.append_nil _).trans same, ?_⟩
        rw [Registry.schema?, World.enrolling, List.find?_append, ← Registry.schema?, free, Option.none_or, List.find?_eq_none]
        intro s inside
        rw [named s inside, apart other member]
        exact Bool.false_ne_true
      obtain ⟨w', ends, more⟩ := goes w₁ (shares.grown (.refl h) learns.heap) (learns.honest honest) later
      refine ⟨w', (Work.ok_bind ran).trans ends, ?_⟩
      have whole := World.Learns.lasting.trans learns.enrolling more
      rwa [World.enrolling_enrolling, List.append_nil, ← found] at whole

end

/-! Documents. -/

/-- A document is there with all its parts, and some of its steps may have been written out. -/
structure Rendered (h k : Heap) (d a : Addr) (entries steps : Entries) : Prop where
  shares : h.Shares (Parts h entries) k
  document : k.objects[d]? = some (.dict entries)
  mapping : ∃ steps', k.objects[a]? = some (.dict steps'.toArray) ∧ List.Forall₂ (Expands h k) steps.toList steps'

section
variable {h k : Heap} {d a : Addr} {entries steps schemas : Entries}

theorem Rendered.same (lies : Lies h d entries) (at_ : StepsAt h entries a steps) : Rendered h h d a entries steps :=
  ⟨lies.shares, lies.found, steps.toList, at_.found, List.forall₂_same.mpr (fun entry _ => .same entry)⟩

/-- After the steps have been written out the document is there. -/
theorem Rendered.written (lies : Lies h d entries) (separate : Separate h entries) (at_ : StepsAt h entries a steps) :
    Rendered h (steps.toList.foldl (expanded a) h) d a entries steps := by
  have stays : Stays h d a entries (steps.toList.foldl (expanded a) h) :=
    (Stays.start lies at_).expandAll lies separate at_ (fun _ member => member)
  obtain ⟨steps', found, each, -⟩ := (written_out at_.found (lies.steps a steps at_)).mapping
  exact ⟨stays.shares, stays.document, steps', found, each⟩

/-- The steps that a document declares. -/
def declared (h : Heap) (entries : Entries) : List Step := (members h (valueOf entries "steps")).map (stepOf h)

theorem InOrder.news (ordered : InOrder h entries a steps schemas) (distinct : steps.Distinct) :
    News [] (declared h entries) := by
  refine ⟨fun _ _ => rfl, ?_⟩
  rw [declared, ordered.at_.members, List.pairwise_map]
  refine distinct.imp_of_mem (fun {e f} first second apart same => ?_)
  obtain ⟨id, _, _, named, -⟩ := ordered.steps e first
  obtain ⟨other, _, _, named', -⟩ := ordered.steps f second
  simp only [stepOf, named, named', textOf] at same
  rw [named, named', same, (Value.sameKey_str _ _).mpr rfl] at apart
  cases apart

/-- What comes of a document that is in order, wherever it is there. -/
theorem registerAll_runs (alone : World) (lies : Lies h d entries) (ordered : InOrder h entries a steps schemas)
    (here : alone.heap = h) (honest : alone.evaluator.Honest) (bare : alone.registry = { steps := declared h entries })
    (settles : ∀ entry ∈ schemas.toList, Settles alone entry) :
    ∃ stored, (schemas.toList.filterMap (refusal? alone) = [] → List.Forall₂ (StoredAs alone) schemas.toList stored) ∧
      ∀ w, Rendered h w.heap d a entries steps → w.evaluator.Honest → w.registry = {} → w.listeners = [] →
        ∃ w', w'.registry = { steps := declared h entries, schemas := stored } ∧ w'.listeners = [] ∧
          registerAll (.ref d) w = if schemas.toList.filterMap (refusal? alone) = [] then .ok () w'
            else .error (.invalidDocument (schemas.toList.filterMap (refusal? alone))) w' := by
  have among : ∀ entry ∈ schemas.toList, entry.1.Among (Parts h entries) ∧ entry.2.Among (Parts h entries) :=
    fun entry member => Lies.schema_among (mem_members.mpr ⟨schemas, ordered.made, member⟩)
  obtain ⟨stored, all, runs⟩ := buildSchemas_run lies.shares here honest bare
    ⟨ordered.schemas, among, settles, lies.schemas schemas ordered.made⟩
  refine ⟨stored, all, fun w rendered honest empty quiet => ?_⟩
  obtain ⟨shares, document, steps', mapping, each⟩ := rendered
  have declares : List.Forall₂ (Declares w.heap) steps' (declared h entries) := by
    have known : ∀ entry ∈ steps.toList, StepInOrder h entry ∧ entry.2.Among (Parts h entries) := fun entry member =>
      ⟨ordered.steps entry member, Lies.definition_among (by rw [ordered.at_.members]; exact member)⟩
    have both := ((List.forall₂_and_left _ _).mpr ⟨known, each⟩).imp
      (fun entry entry' ⟨⟨inOrder, inside⟩, expands⟩ => inOrder.declares shares inside expands)
    rw [declared, ordered.at_.members]
    exact List.forall₂_map_right_iff.mpr both.flip
  -- The steps are registered, and then the schemas in what the world has become.
  let begun : World := { w with problems := [] }
  have fresh : begun.registry = {} := empty
  have news : News begun.registry.steps (declared h entries) := by
    rw [fresh]
    exact ordered.news (lies.steps a steps ordered.at_)
  obtain ⟨w₁, registered, learns⟩ := buildSteps_run declares (.refl begun.heap) news
  have later := shares.grown (.refl h) learns.heap
  have known : w₁.registry = { steps := declared h entries } := by
    rw [learns.registry, World.enrolling, fresh]
    rfl
  obtain ⟨w₂, built, more⟩ := runs w₁ later (learns.honest honest) (fun entry _ => by rw [known]; exact ⟨rfl, rfl⟩)
  have whole := World.Learns.lasting.trans learns.enrolling more
  rw [World.enrolling_enrolling, List.append_nil, List.nil_append, List.nil_append] at whole
  have problems : w₂.problems = schemas.toList.filterMap (refusal? alone) := whole.problems
  refine ⟨w₂, ?_, whole.listeners.trans quiet, ?_⟩
  · rw [whole.registry, World.enrolling, fresh]
    rfl
  · have opened : (Value.ref d).entries? begun.heap = some entries := by
      simp only [Value.entries?, begun, Heap.object_of_getElem? document]
    have first : sectionEntries (.ref d) "steps" begun = .ok steps'.toArray begun := by
      refine sectionEntries_eq opened ?_
      rw [ordered.at_.named]
      simp only [Value.entries?, begun, Heap.object_of_getElem? mapping]
    have second : sectionEntries (.ref d) "schemas" w₁ = .ok schemas w₁ := by
      refine sectionEntries_eq (entries_grown learns.heap opened) ?_
      have section_ : (valueOf entries "schemas").Among (Parts h entries) := fun _ named => .inl (.here named)
      rw [later.entries? section_, ordered.made]
    have ran : registerAll (.ref d) w = conclude w₂ := by
      have begins : forgetProblems w = .ok () begun := rfl
      rw [registerAll, Work.ok_bind begins, Work.ok_bind first, Work.ok_bind registered, Work.ok_bind second,
        Work.ok_bind built]
    rw [ran]
    simp only [conclude, Bind.bind, EStateM.bind, Script.get_result, problems]
    cases schemas.toList.filterMap (refusal? alone) <;> rfl

/-- Building replaces what is registered, or leaves it as it was. -/
theorem build_of_registerAll {document : Value} {w w' : World} {found : List Problem}
    (ran : registerAll document { w with registry := {}, listeners := [] } =
      if found = [] then .ok () w' else .error (.invalidDocument found) w') :
    build document w = if found = [] then .ok () w'
      else .error (.invalidDocument found) { w' with registry := w.registry, listeners := w.listeners } := by
  simp only [build, Job.attempt, Bind.bind, EStateM.bind, Script.get_result, Script.set_result, ran]
  cases found with
  | nil => rfl
  | cons problem rest =>
    simp only [reduceCtorEq, if_false]
    rfl

end

/-- An accepted document is built alike before and after its steps have been written out. What is built holds the steps that it
declares and the schemas as they are stored when each is registered alone; if some of them are refused then, the build fails with
one problem for each of these, and leaves what was registered as it was. -/
theorem build_registers {w w₁ : World} {d : Addr} {entries : Entries} (honest : w.evaluator.Honest)
    (lies : Lies w.heap d entries) (separate : Separate w.heap entries) (accepted : validate (.ref d) w = .ok () w₁)
    (settles : ∀ entry ∈ members w.heap (valueOf entries "schemas"),
      Settles (w.holding (declared w.heap entries)) entry) :
    let schemas := members w.heap (valueOf entries "schemas")
    let alone := w.holding (declared w.heap entries)
    let refusals := schemas.filterMap (refusal? alone)
    ∃ stored, (refusals = [] → List.Forall₂ (StoredAs alone) schemas stored) ∧
      ∀ v : World, v.heap = w.heap ∨ v.heap = w₁.heap → v.evaluator.Honest →
        (refusals = [] → ∃ v', build (.ref d) v = .ok () v' ∧
          v'.registry = { steps := declared w.heap entries, schemas := stored } ∧ v'.listeners = []) ∧
        (refusals ≠ [] → ∃ v', build (.ref d) v = .error (.invalidDocument refusals) v' ∧
          v'.registry = v.registry ∧ v'.listeners = v.listeners) := by
  intro schemas alone refusals
  obtain ⟨a, steps, section_, ordered, written⟩ := accepted_in_order lies separate accepted
  have listed : schemas = section_.toList := by
    simp only [schemas, members, ordered.made, Option.getD_some]
  obtain ⟨stored, all, runs⟩ := registerAll_runs alone lies ordered rfl honest rfl
    (fun entry member => settles entry (by rw [show members _ _ = _ from listed]; exact member))
  rw [← listed] at all runs
  refine ⟨stored, all, fun v there sound => ?_⟩
  have rendered : Rendered w.heap v.heap d a entries steps := by
    obtain same | same := there
    · rw [same]
      exact .same lies ordered.at_
    · rw [same, written]
      exact .written lies separate ordered.at_
  obtain ⟨w', registry, listeners, ran⟩ := runs { v with registry := {}, listeners := [] } rendered sound rfl rfl
  have built := build_of_registerAll ran
  exact ⟨fun none => ⟨w', by rw [built, if_pos none], registry, listeners⟩,
    fun some => ⟨_, built.trans (if_neg some), rfl, rfl⟩⟩

/-- A document with a step that is a text is built alike before it has been validated and afterwards. -/
theorem short_document_built : ∃ w₁, validate (.ref 0) shortDocument = .ok () w₁ ∧
    ∀ v : World, v.heap = shortDocument.heap ∨ v.heap = w₁.heap → v.evaluator.Honest →
      ∃ v', build (.ref 0) v = .ok () v' ∧ v'.registry.steps.map (·.id) = ["a", "b"] ∧
        v'.registry.schemas.map (·.id) = [.str "s"] ∧ v'.listeners = [] := by
  let entries : Entries := #[(.str "version", .str "1.0"), (.str "steps", .ref 1), (.str "schemas", .ref 3)]
  let steps : Entries := #[(.str "a", .str "1"), (.str "b", .ref 2)]
  have at_ : StepsAt shortDocument.heap entries 1 steps := ⟨rfl, rfl⟩
  have lies : Lies shortDocument.heap 0 entries := by
    refine ⟨rfl, .of_closed (by decide) (by decide), fun a other there => ?_, fun schemas made => ?_⟩
    · obtain ⟨-, rfl⟩ := at_.unique there
      unfold Entries.Distinct
      decide
    · cases made
      unfold Entries.Distinct
      decide
  have separate : Separate shortDocument.heap entries := by
    have shares : shortDocument.heap.Shares (· ∈ [2, 3, 4]) shortDocument.heap := by
      refine ⟨fun a inside => ?_, by decide⟩
      have there : ∀ a ∈ [2, 3, 4], a < shortDocument.heap.objects.size := by decide
      exact ⟨_, Array.getElem?_eq_getElem (there a inside), Array.getElem?_eq_getElem (there a inside)⟩
    exact .of_outside shares at_ (by decide) (show ∀ a ∈ [3], a ∈ [2, 3, 4] by decide)
      (List.forall_mem_cons.mpr ⟨.plain rfl, List.forall_mem_singleton.mpr (show ∀ a ∈ [2], a ∈ [2, 3, 4] by decide)⟩)
  have schemas : members shortDocument.heap (valueOf entries "schemas") = [(.str "s", .ref 4)] := rfl
  obtain ⟨_, w₁, accepted, -⟩ := Engine.exists_of_passes
    (show Engine.passes (fun _ _ => true) (validate (.ref 0) shortDocument) = true by decide +kernel)
  let alone := shortDocument.holding (declared shortDocument.heap entries)
  obtain ⟨_, w₂, registered, -⟩ := Engine.exists_of_passes
    (show Engine.passes (fun _ _ => true) (registerSchema (.str "s") (.ref 4) alone) = true by decide +kernel)
  have settles : ∀ entry ∈ members shortDocument.heap (valueOf entries "schemas"), Settles alone entry := by
    rw [schemas]
    refine List.forall_mem_singleton.mpr (fun fault w' failed => ?_)
    cases registered.symm.trans failed
  obtain ⟨stored, all, builds⟩ := build_registers (nofun : shortDocument.evaluator.Honest) lies separate accepted settles
  have none : (members shortDocument.heap (valueOf entries "schemas")).filterMap (refusal? alone) = [] := by
    rw [schemas, List.filterMap_cons_none (by rw [refusal?, registered])]
    rfl
  refine ⟨w₁, accepted, fun v there honest => ?_⟩
  obtain ⟨v', built, registry, listeners⟩ := (builds v there honest).1 none
  refine ⟨v', built, by rw [registry]; rfl, ?_, listeners⟩
  have all := all none
  rw [schemas] at all
  obtain ⟨s, rest, storedAs, none, rfl⟩ := List.forall₂_cons_left_iff.mp all
  obtain rfl := List.forall₂_nil_left_iff.mp none
  rw [registry, List.map_singleton, storedAs.id]

/-- A document in which the mapping of the steps is also an item of a schema. -/
def sharedItem : World where
  heap.objects := #[
    .dict #[(.str "version", .str "1.0"), (.str "steps", .ref 1), (.str "schemas", .ref 2)],
    .dict #[(.str "id", .str "id")],
    .dict #[(.str "s", .ref 3)],
    .list #[.ref 1]]

/-- The item is the mapping of the steps, in which the definition has been written out. -/
def itemProblem : Problem where
  message := "Workflow schema \"s\" at steps[0]: step id must be a non-empty string, got \x7b'handler': 'id'\x7d"
  path := "schemas.s"

/-- Where the mapping of the steps has another part in its document, what can be built before it is validated may be refused
afterwards. -/
theorem shared_item_misbuilt : (∃ w, build (.ref 0) sharedItem = .ok () w) ∧
    ∃ w w', validate (.ref 0) sharedItem = .ok () w ∧ build (.ref 0) w = .error (.invalidDocument [itemProblem]) w' := by
  obtain ⟨_, w, built, -⟩ := Engine.exists_of_passes
    (show Engine.passes (fun _ _ => true) (build (.ref 0) sharedItem) = true by decide +kernel)
  have turns : Engine.passes (fun _ w => listsOnly [itemProblem] (build (.ref 0) w)) (validate (.ref 0) sharedItem) = true := by
    decide +kernel
  obtain ⟨_, w₁, accepted, again⟩ := Engine.exists_of_passes turns
  obtain ⟨w', failed⟩ := exists_of_listsOnly again
  exact ⟨⟨w, built⟩, w₁, w', accepted, failed⟩

end Document

end Workflow
