import Workflow.Proofs.Building
import Workflow.Proofs.Files
import Workflow.Proofs.Quiet
import Workflow.Proofs.Rechecking
import Workflow.Proofs.Registrable
import Workflow.Proofs.Respelling
import Workflow.Proofs.YamlValues

/-! Executors that are built again from the same document. What was registered once is registered again, in the same order
and at other addresses, behind whatever else there is. -/

namespace Workflow
open Engine (Work)
open Script (Act Addr Entries Heap Renaming Value)

variable {start base : Heap} {f g : Renaming}

/-! Walks over corresponding schemas. -/

mutual

theorem Item.Sent.stepIds {i j : Item} (sent : Item.Sent f i j) : j.stepIds = i.stepIds := by
  cases sent with
  | step | marker => rfl
  | block inside => rw [Item.stepIds, Item.stepIds, inside.stepIds]
  | loop _ inside => rw [Item.stepIds, Item.stepIds, inside.stepIds]

theorem Items.Sent.stepIds {items items' : List Item} (sent : Items.Sent f items items') (index : Nat) :
    stepIdsFrom index items' = stepIdsFrom index items := by
  cases sent with
  | nil => rfl
  | cons first others => rw [stepIdsFrom, stepIdsFrom, first.stepIds, others.stepIds]

end

/-- Conditions correspond and lie at the same path. -/
structure Tested (f : Renaming) (found found' : Path × Condition) : Prop where
  path : found'.1 = found.1
  condition : Condition.Sent f found.2 found'.2

theorem Tested.mono {found found' : Path × Condition} (tested : Tested f found found') (within : f.Within g) :
    Tested g found found' := ⟨tested.path, tested.condition.mono within⟩

theorem Tested.below {found found' : List (Path × Condition)} (all : List.Forall₂ (Tested f) found found') (places : Path) :
    List.Forall₂ (Tested f) (below places found) (below places found') := by
  rw [Workflow.below, Workflow.below, List.forall₂_map_left_iff, List.forall₂_map_right_iff]
  exact all.imp (fun _ _ tested => ⟨congrArg (places ++ ·) tested.path, tested.condition⟩)

theorem Gate.Sent.tested {gate gate' : Option Condition} (opens : Gate.Sent f gate gate') :
    List.Forall₂ (Tested f) (gateAt gate) (gateAt gate') := by
  cases opens with
  | none => exact .nil
  | some condition => exact .cons ⟨rfl, condition⟩ .nil

mutual

theorem Item.Sent.conditions {i j : Item} (sent : Item.Sent f i j) : List.Forall₂ (Tested f) i.conditions j.conditions := by
  cases sent with
  | step _ opens => exact opens.tested
  | block inside opens => exact List.rel_append opens.tested (Tested.below (inside.conditions 0) _)
  | loop condition inside opens =>
    have test : List.Forall₂ (Tested f) _ _ := .cons (a := ([.test], _)) (b := ([.test], _)) ⟨rfl, condition⟩ .nil
    exact List.rel_append (List.rel_append opens.tested test) (Tested.below (inside.conditions 0) _)
  | marker condition => exact .cons ⟨rfl, condition⟩ .nil

theorem Items.Sent.conditions {items items' : List Item} (sent : Items.Sent f items items') (index : Nat) :
    List.Forall₂ (Tested f) (conditionsFrom index items) (conditionsFrom index items') := by
  cases sent with
  | nil => exact .nil
  | cons first others => exact List.rel_append (Tested.below first.conditions _) (others.conditions _)

end

/-! Schemas. -/

/-- What one job comes to in a world in which a document is loaded, another job comes to in the other one. -/
abbrev Job.Follows (start base : Heap) (f : Renaming) (like : Renaming → α → β → Prop) (x : Job α) (y : Job β) : Prop :=
  Workflow.Follows (World.Behind start base) f like x y

namespace Job.Repeats

theorem log (level : LogLevel) (logger message message' : String) :
    Repeats start base f Whatever (Job.log level logger message) (Job.log level logger message') :=
  fun _ _ behind => .ok (.refl f) trivial ⟨behind.heap, behind.registry, behind.evaluators, behind.problems⟩

theorem checkKey {v v' : Value} (sends : f.Sends v v') :
    Repeats start base f Whatever (Job.act (Act.checkKey v)) (Job.act (Act.checkKey v')) := by
  obtain ⟨covers, rfl⟩ := sends
  refine act (fun h h' behind => ?_)
  have same := behind.renamed.unhashable? covers
  simp only [Act.checkKey, Bind.bind, EStateM.bind, Script.get_result, same]
  cases v.unhashable? h with
  | none => exact .ok (.refl f) trivial behind
  | some name => exact (Heap.Behind.housing _ _).fail _ _ h h' behind

/-- Whether some steps are known. -/
theorem stepsKnown {id id' : Value} (ids : List (Path × String)) :
    Repeats start base f Whatever (Executor.checkSteps id ids) (Executor.checkSteps id' ids) := by
  induction ids with
  | nil => exact .pure trivial
  | cons found rest ih =>
    obtain ⟨path, step⟩ := found
    intro v w behind
    simp only [Executor.checkSteps, Bind.bind, EStateM.bind, Script.get_result]
    obtain ⟨missing, missing'⟩ | ⟨s, s', there, there', -⟩ := behind.registry.step? step
    · simp only [missing, missing', Option.isNone_none, if_true]
      exact .error (.refl f) (.other (fun _ => by simp) (fun _ => by simp)) behind
    · simp only [there, there', Option.isNone_some, Bool.false_eq_true, if_false]
      exact ih v w behind

/-- Whether some conditions compile. -/
theorem conditionsCompile {id id' : Value} {found found' : List (Path × Condition)} (all : List.Forall₂ (Tested f) found found') :
    Repeats start base f Whatever (Executor.checkConditions id found) (Executor.checkConditions id' found') := by
  induction found generalizing found' f with
  | nil =>
    cases all
    exact .pure trivial
  | cons tested rest ih =>
    cases all with
    | @cons _ tested' _ _ first others =>
      have onward (g : Renaming) (within : f.Within g) := ih (f := g) (others.imp (fun _ _ same => same.mono within))
      obtain ⟨path, condition⟩ := tested
      obtain ⟨path', condition'⟩ := tested'
      obtain ⟨-, sent⟩ := first
      cases sent with
      | call => exact onward f (.refl f)
      | source text =>
        refine (compile text).bind (fun g r r' within answer => ?_)
        obtain ⟨rfl, other⟩ := answer
        split
        · exact onward g within
        · exact fail (fun _ => by simp) (fun _ => by simp)
        · exact fail (other _ rfl) (other _ rfl)

theorem announce {id id' : Value} (named : f.Sends id id') (space : Option String) :
    Repeats start base f Whatever (Executor.announce id (prefixValue space)) (Executor.announce id' (prefixValue space)) := by
  have spaced : Repeats start base f Whatever (spaceOf (prefixValue space)) (spaceOf (prefixValue space)) := by
    intro v w behind
    obtain ⟨note, told, -⟩ := spaceOf_prefix space v
    obtain ⟨note', told', -⟩ := spaceOf_prefix space w
    rw [told, told']
    exact .ok (.refl f) trivial behind
  have logged {g : Renaming} {v u : Value} (sends : g.Sends v u) (note other : String) : Repeats start base g Whatever (do
      Job.log .debug "stepflow.workflow.registry" s!"Registered workflow schema: {← Job.shown v}{note}") (do
      Job.log .debug "stepflow.workflow.registry" s!"Registered workflow schema: {← Job.shown u}{other}") :=
    (shown sends).bind (fun _ _ _ _ _ => log _ _ _ _)
  refine spaced.bind (fun g note note' within _ => ?_)
  cases note <;> cases note' <;> exact logged (named.mono within) _ _

/-- A step is added if its id is new. -/
theorem addStep {s s' : Step} (sent : Step.Sent f s s') :
    Repeats start base f Whatever (Executor.addStep s) (Executor.addStep s') := by
  intro v w behind
  simp only [Executor.addStep, Bind.bind, EStateM.bind, Script.get_result, sent.id]
  obtain ⟨missing, missing'⟩ | ⟨t, t', there, there', -⟩ := behind.registry.step? s.id
  · simp only [missing, missing', Option.isSome_none, Bool.false_eq_true, if_false]
    refine .ok (.refl f) trivial ⟨behind.heap, ⟨?_, behind.registry.schemas⟩, behind.evaluators, behind.problems⟩
    exact List.rel_append behind.registry.steps (.cons sent .nil)
  · simp only [there, there', Option.isSome_some, if_true]
    exact .error (.refl f) (.other (fun _ => by simp) (fun _ => by simp)) behind

end Job.Repeats

namespace Job.Follows
variable {like : Renaming → α → β → Prop}

theorem normalise {id id' items items' : Value} (sends : f.Sends items items') (space : Option String) :
    Follows start base f Items.Sent (Workflow.normalise id items (prefixValue space))
      (Workflow.normalise id' items' (prefixValue space)) := by
  obtain ⟨covers, rfl⟩ := sends
  intro v w schema v' behind ran
  obtain ⟨rfl, spelt, read⟩ := (normalise_ok_iff id space).mp ran
  obtain ⟨schema', spelt', sent⟩ := spelt.elsewhere behind.heap.renamed covers
  have read' := Draft.ofValue_elsewhere behind.heap.renamed _ covers read
  exact ⟨f, schema', w, .refl f, (normalise_ok_iff id' space).mpr ⟨rfl, spelt', read'⟩, sent, behind⟩

theorem examine {id id' items items' : Value} (named : f.Sends id id') (sends : f.Sends items items') (space : Option String) :
    Follows start base f Items.Sent (Executor.examine id items (prefixValue space))
      (Executor.examine id' items' (prefixValue space)) := by
  have read (g : Renaming) (within : f.Within g) : Follows start base g Items.Sent
      (do
        let schema ← Workflow.normalise id items (prefixValue space)
        Executor.checkSteps id schema.stepIds
        Executor.checkConditions id schema.conditions
        return schema)
      (do
        let schema ← Workflow.normalise id' items' (prefixValue space)
        Executor.checkSteps id' schema.stepIds
        Executor.checkConditions id' schema.conditions
        return schema) := by
    refine (normalise (sends.mono within) space).bind (fun k schema schema' _ sent => ?_)
    have ids : Schema.stepIds schema' = Schema.stepIds schema := sent.stepIds 0
    rw [ids]
    refine (Follows.of_alike (Job.Repeats.stepsKnown _)).bind (fun l _ _ more _ => ?_)
    have conditions : List.Forall₂ (Tested l) (Schema.conditions schema) (Schema.conditions schema') :=
      (sent.mono more).conditions 0
    refine (Follows.of_alike (Job.Repeats.conditionsCompile conditions)).bind (fun m _ _ further _ => ?_)
    exact .pure ((sent.mono more).mono further)
  refine (Follows.of_alike (Job.Repeats.checkKey named)).bind (fun g _ _ within _ => ?_)
  intro v w schema v' behind ran
  simp only [Bind.bind, EStateM.bind, Script.get_result] at ran ⊢
  obtain ⟨missing, missing'⟩ | ⟨s, s', there, -, -⟩ := behind.registry.schema? (named.mono within)
  · rw [missing] at ran
    rw [missing']
    exact read g within v w schema v' behind ran
  · rw [there] at ran
    cases ran

theorem register {id id' items items' : Value} (named : f.Sends id id') (sends : f.Sends items items') (space : Option String) :
    Follows start base f Whatever (Executor.register id items (prefixValue space))
      (Executor.register id' items' (prefixValue space)) := by
  rw [Executor.register_eq, Executor.register_eq]
  refine (examine named sends space).bind (fun g schema schema' within sent => ?_)
  have stored : Job.Repeats start base g Whatever (modify (fun w => w.storing ⟨id, schema, prefixValue space⟩) : Job PUnit)
      (modify (fun w => w.storing ⟨id', schema', prefixValue space⟩) : Job PUnit) := by
    intro v w behind
    refine .ok (.refl g) trivial ⟨behind.heap, ⟨behind.registry.steps, ?_⟩, behind.evaluators, behind.problems⟩
    exact List.rel_append behind.registry.schemas (.cons ⟨named.mono within, sent⟩ .nil)
  refine (Follows.of_alike stored).bind (fun k _ _ more _ => ?_)
  exact .of_alike (Job.Repeats.announce (named.mono (within.trans more)) space)

end Job.Follows

namespace Step

/-- The handler that a value stands for. -/
def handlerOf (id : String) : Value → Job Handler
  | .str text => pure (.source text)
  | v => do if v.isCallable (← get).heap then pure (.call v) else Job.refuse (.handler id)

/-- What a step binds, from its globals. -/
def boundBy (globals : Value) : Job Entries := do
  if globals.truth (← get).heap then Job.act (Act.entriesOf Script.interpreter globals) else pure #[]

theorem make_text (id : String) (handler input globals : Value) :
    make (.str id) handler input globals = do
      let id ← if id.isEmpty then Job.refuse (.stepId (Text.quote id)) else pure id
      let k ← handlerOf id handler
      let bound ← boundBy globals
      return { id, handler := k, input, globals := Entries.insertAll #[] bound } := by
  have either {α : Type} {c : Prop} [Decidable c] {x y : Job α} {k : α → Job Step} :
      (if c then x else y) >>= k = if c then x >>= k else y >>= k := by split <;> rfl
  unfold make
  cases handler <;> simp only [handlerOf, boundBy, bind_assoc, pure_bind, either]

end Step

namespace Document

/-- Only mappings have parts. -/
theorem part_ok {v x : Value} {name : String} {w w' : World} (ran : part v name w = .ok x w') :
    w' = w ∧ ∃ entries, v.entries? w.heap = some entries ∧ Entries.named? entries name = some x := by
  cases v with
  | ref a =>
    simp only [part, Job.act, Act.subscript, Act.object, Bind.bind, EStateM.bind] at ran
    simp only [Value.entries?]
    cases found : w.heap.object a with
    | dict entries =>
      simp only [found, Act.checkKey, Value.unhashable?, Bind.bind, EStateM.bind, Script.get_result, Pure.pure,
        EStateM.pure] at ran
      cases named : Entries.get? entries (.str name) with
      | some y =>
        rw [named] at ran
        cases ran
        exact ⟨rfl, entries, rfl, named⟩
      | none =>
        rw [named] at ran
        cases ran
    | _ =>
      simp only [found] at ran
      cases ran
  | _ => cases ran

theorem entriesOf_mapping {v : Value} {entries : Entries} {w : World} (made : v.entries? w.heap = some entries) :
    Job.act (Act.entriesOf Script.interpreter v) w = .ok entries w := by
  obtain ⟨a, rfl, found⟩ := dict_of_entries made
  simp only [Job.act, Act.entriesOf, Act.object, Bind.bind, EStateM.bind, Heap.object_of_getElem? found]
  rfl

section
variable {v w v' : World} (behind : World.Behind start base f v w)
include behind

theorem part_again {x x' y : Value} {name : String} (sends : f.Sends x x') (ran : part x name v = .ok y v') :
    v' = v ∧ (∃ entries, x.entries? v.heap = some entries ∧ Entries.named? entries name = some y) ∧
      part x' name w = .ok (y.rename f.map) w ∧ f.Covers y := by
  obtain ⟨rfl, entries, made, named⟩ := part_ok ran
  obtain ⟨covers, rfl⟩ := sends
  obtain ⟨same, covered⟩ := behind.heap.renamed.entries? covers
  obtain ⟨covers', named'⟩ := Entries.named_sent (covered entries made) named
  rw [made] at same
  exact ⟨rfl, ⟨entries, made, named⟩, part_eq same named', covers'⟩

/-- What a step binds is taken again of corresponding globals. -/
theorem boundBy_again {globals globals' : Value} {entries : Entries} (bound : f.Sends globals globals')
    (opened : globals = .nothing ∨ ∃ entries, globals.entries? v.heap = some entries)
    (ran : Step.boundBy globals v = .ok entries v') :
    v' = v ∧ Step.boundBy globals' w = .ok (Entries.rename entries f.map) w ∧ entries.CoveredBy f := by
  obtain ⟨covers, rfl⟩ := bound
  have looked (x : Value) (u : World) : Step.boundBy x u =
      (if x.truth u.heap then Job.act (Act.entriesOf Script.interpreter x) else pure #[]) u := rfl
  rw [looked] at ran
  rw [looked, behind.heap.renamed.truth covers]
  cases holds : globals.truth v.heap with
  | true =>
    rw [if_pos holds] at ran
    obtain rfl | ⟨found, made⟩ := opened
    · cases holds
    · rw [entriesOf_mapping made] at ran
      cases ran
      obtain ⟨same, covered⟩ := behind.heap.renamed.entries? covers
      rw [made] at same
      exact ⟨rfl, entriesOf_mapping same, covered entries made⟩
  | false =>
    rw [if_neg (Bool.eq_false_iff.mp holds)] at ran
    cases ran
    rw [Entries.rename, Array.map_empty]
    exact ⟨rfl, rfl, fun entry member => absurd member (Array.not_mem_empty _)⟩

/-- The handler of a step is found again. -/
theorem handlerOf_again (id : String) {handler handler' : Value} {k : Handler} (handled : f.Sends handler handler')
    (ran : Step.handlerOf id handler v = .ok k v') :
    v' = v ∧ ∃ k', Step.handlerOf id handler' w = .ok k' w ∧ Handler.Sent f k k' := by
  obtain ⟨covers, rfl⟩ := handled
  cases handler with
  | str source =>
    cases ran
    exact ⟨rfl, _, rfl, .source source⟩
  | _ =>
    have same := behind.heap.renamed.isCallable covers
    simp only [Value.rename, Step.handlerOf, Bind.bind, EStateM.bind, Script.get_result] at ran same ⊢
    split at ran
    · next callable =>
      cases ran
      rw [same, if_pos callable]
      exact ⟨rfl, _, rfl, .call ⟨covers, rfl⟩⟩
    · cases ran

/-- A step is made again of corresponding parts. -/
theorem make_again {id id' handler handler' input input' globals globals' : Value} {s : Step} (named : f.Sends id id')
    (handled : f.Sends handler handler') (given : f.Sends input input') (bound : f.Sends globals globals')
    (opened : globals = .nothing ∨ ∃ entries, globals.entries? v.heap = some entries)
    (ran : Step.make id handler input globals v = .ok s v') :
    v' = v ∧ ∃ s', Step.make id' handler' input' globals' w = .ok s' w ∧ Step.Sent f s s' := by
  obtain ⟨-, rfl⟩ := named
  cases id with
  | str id =>
    simp only [Value.rename, Step.make_text] at ran ⊢
    cases empty : id.isEmpty with
    | true =>
      rw [empty] at ran
      cases ran
    | false =>
      simp only [empty, Bool.false_eq_true, if_false, pure_bind] at ran ⊢
      obtain ⟨k, w₁, chosen, goes⟩ := Work.bind_ok ran
      obtain ⟨rfl, k', chosen', sent⟩ := handlerOf_again behind id handled chosen
      obtain ⟨entries, w₂, taken, made⟩ := Work.bind_ok goes
      obtain ⟨rfl, taken', covered⟩ := boundBy_again behind bound opened taken
      cases made
      have nothing : Entries.CoveredBy #[] f := fun entry member => absurd member (Array.not_mem_empty _)
      obtain ⟨same, all⟩ := Entries.insertAll_renamed nothing covered
      have empty : Entries.rename #[] f.map = #[] := Array.map_empty
      rw [empty] at same
      rw [Work.ok_bind chosen', Work.ok_bind taken']
      exact ⟨rfl, _, rfl, rfl, sent, given, all, same⟩
  | _ =>
    unfold Step.make at ran
    obtain ⟨_, _, -, refused⟩ := Work.bind_ok ran
    obtain ⟨_, _, impossible, -⟩ := Work.bind_ok refused
    cases impossible

/-- A step is declared again by a mapping whose globals are a mapping. -/
theorem declares_again {id id' x x' : Value} (named : f.Sends id id') (sends : f.Sends x x') (mapped : Mapped v.heap x)
    (ran : (do
      let handler ← part x "handler"
      let input ← optionalPart x "input"
      let globals ← optionalPart x "globals"
      Executor.addStep (← Step.make id handler input globals)) v = .ok () v') :
    ∃ g w', f.Within g ∧ (do
      let handler ← part x' "handler"
      let input ← optionalPart x' "input"
      let globals ← optionalPart x' "globals"
      Executor.addStep (← Step.make id' handler input globals)) w = .ok () w' ∧ World.Behind start base g v' w' := by
  obtain ⟨inner, made, globals⟩ := mapped
  obtain ⟨handler, w₁, handled, goes⟩ := Work.bind_ok ran
  obtain ⟨rfl, -, handled', covers⟩ := part_again behind sends handled
  have same := behind.heap.renamed.entries? sends.1
  rw [← sends.2, made] at same
  have entries : Entries.Sent f inner (Entries.rename inner f.map) := ⟨same.2 inner rfl, rfl⟩
  rw [Work.ok_bind (optionalPart_eq made _), Work.ok_bind (optionalPart_eq made _)] at goes
  rw [Work.ok_bind handled', Work.ok_bind (optionalPart_eq same.1 _), Work.ok_bind (optionalPart_eq same.1 _)]
  obtain ⟨s, w₂, built, added⟩ := Work.bind_ok goes
  have opened : valueOf inner "globals" = .nothing ∨ ∃ entries, (valueOf inner "globals").entries? w₁.heap = some entries := by
    unfold valueOf
    cases found : Entries.named? inner "globals" with
    | none => exact .inl rfl
    | some bound => exact .inr (Option.isSome_iff_exists.mp (globals bound found))
  obtain ⟨rfl, s', built', sent⟩ := make_again behind named ⟨covers, rfl⟩ (entries.valueOf "input") (entries.valueOf "globals")
    opened built
  rw [Work.ok_bind built']
  obtain ⟨g, _, w', within, added', -, behind'⟩ := Follows.of_alike (Job.Repeats.addStep sent) _ _ _ _ behind added
  exact ⟨g, w', within, added', behind'⟩

/-- A schema is registered again from a mapping. -/
theorem enters_again {id id' x x' : Value} (named : f.Sends id id') (sends : f.Sends x x') (spaced : Spaced v.heap x)
    (ran : (do
      let items ← part x "steps"
      Executor.register id items (← optionalPart x "prefix")) v = .ok () v') :
    ∃ g w', f.Within g ∧ (do
      let items ← part x' "steps"
      Executor.register id' items (← optionalPart x' "prefix")) w = .ok () w' ∧ World.Behind start base g v' w' := by
  obtain ⟨items, w₁, found, goes⟩ := Work.bind_ok ran
  obtain ⟨rfl, ⟨inner, made, -⟩, found', covers⟩ := part_again behind sends found
  have same := behind.heap.renamed.entries? sends.1
  rw [← sends.2, made] at same
  have entries : Entries.Sent f inner (Entries.rename inner f.map) := ⟨same.2 inner rfl, rfl⟩
  obtain ⟨space, named_⟩ := prefix_of_isSpace (spaced inner made)
  have space' : valueOf (Entries.rename inner f.map) "prefix" = prefixValue space := by
    rw [(entries.valueOf "prefix").2, named_]
    cases space <;> rfl
  rw [Work.ok_bind (optionalPart_eq made _), named_] at goes
  rw [Work.ok_bind found', Work.ok_bind (optionalPart_eq same.1 _), space']
  obtain ⟨g, _, w', within, registered, -, behind'⟩ := Job.Follows.register named ⟨covers, rfl⟩ space _ _ _ _ behind goes
  exact ⟨g, w', within, registered, behind'⟩

end

/-- A definition that is a text is written out before it is looked at. -/
theorem single_again {v w : World} (behind : World.Behind start base f v w) (name : String) {x x' : Value}
    (sends : f.Sends x x') :
    ∃ g, f.Within g ∧
      World.Behind start base g { v with heap := (v.heap.alloc (.dict #[(.str name, x)])).2 }
        { w with heap := (w.heap.alloc (.dict #[(.str name, x')])).2 } ∧
      g.Sends (.ref v.heap.objects.size) (.ref w.heap.objects.size) := by
  have carried := Job.Repeats.single name sends v w behind
  rw [single_eq, single_eq] at carried
  cases carried with
  | ok within sends behind => exact ⟨_, within, behind, sends⟩

/-- What a definition says at the start, it says later on. -/
theorem Mapped.grown {h k : Heap} {x : Value} (mapped : Mapped h x) (grows : h.Extends k) : Mapped k x := by
  obtain ⟨inner, made, globals⟩ := mapped
  refine ⟨inner, entries_grown grows made, fun bound found => ?_⟩
  obtain ⟨entries, opened⟩ := Option.isSome_iff_exists.mp (globals bound found)
  exact Option.isSome_iff_exists.mpr ⟨entries, entries_grown grows opened⟩

/-- A step of a document is built again. -/
theorem buildStep_follows {id id' config config' : Value} (named : f.Sends id id') (sends : f.Sends config config')
    (defines : Defines start config) : Job.Follows start base f Whatever (buildStep id config) (buildStep id' config') := by
  intro v w a v' behind ran
  obtain ⟨source, rfl⟩ | mapped := defines
  · obtain ⟨-, rfl⟩ := sends
    have bare : f.Sends (.str source) (.str source) := Value.isBare.sends (v := .str source) rfl f
    obtain ⟨g, within, behind, sends⟩ := single_again behind "handler" bare
    have mapped : Mapped _ (.ref v.heap.objects.size) :=
      ⟨_, single_made v.heap "handler" (.str source), fun _ found => by cases found⟩
    obtain ⟨k, w', more, done, behind⟩ := declares_again behind (named.mono within) sends mapped ran
    exact ⟨k, a, w', within.trans more, done, trivial, behind⟩
  · have ⟨inner, made, _⟩ := mapped
    obtain ⟨b, rfl, -⟩ := dict_of_entries made
    have ⟨_, same⟩ := sends
    subst same
    obtain ⟨g, w', within, done, behind⟩ := declares_again behind named sends (mapped.grown behind.heap.grown) ran
    exact ⟨g, a, w', within, done, trivial, behind⟩

/-- A mapping that was there at the start held the same then. -/
theorem entries_early {h k : Heap} {x : Value} {inner : Entries} (grows : h.Extends k)
    (there : ∀ a ∈ x.addresses, a < h.objects.size) (made : x.entries? k = some inner) : x.entries? h = some inner := by
  obtain ⟨a, rfl, found⟩ := dict_of_entries made
  have inside : a < h.objects.size := there a List.mem_cons_self
  obtain ⟨o, same⟩ : ∃ o, h.objects[a]? = some o := ⟨_, Array.getElem?_eq_getElem inside⟩
  cases (grows a o same).symm.trans found
  simp only [Value.entries?, Heap.object_of_getElem? same]

/-- What stands in front of the ids of a schema is told by the heap at the start. -/
theorem Spaced.grown {h k : Heap} {x : Value} (spaced : Spaced h x) (grows : h.Extends k)
    (there : ∀ a ∈ x.addresses, a < h.objects.size) : Spaced k x :=
  fun inner made => spaced inner (entries_early grows there made)

/-- A schema of a document is registered again. -/
theorem registerSchema_follows {id id' config config' : Value} (named : f.Sends id id') (sends : f.Sends config config')
    (spaced : Spaced start config) (there : ∀ a ∈ config.addresses, a < start.objects.size) :
    Job.Follows start base f Whatever (registerSchema id config) (registerSchema id' config') := by
  intro v w a v' behind ran
  have listed : isList config v = .ok (config.listItems? v.heap).isSome v := rfl
  have listed' : isList config' w = .ok (config.listItems? v.heap).isSome w := by
    have same : isList config' w = .ok (config'.listItems? w.heap).isSome w := rfl
    rw [same, sends.2, (behind.heap.renamed.listItems? sends.1).1, Option.isSome_map]
  unfold registerSchema at ran ⊢
  simp only [Work.ok_bind listed] at ran
  simp only [Work.ok_bind listed']
  generalize (config.listItems? v.heap).isSome = isRow at ran ⊢
  cases isRow with
  | true =>
    obtain ⟨g, within, behind, sends⟩ := single_again behind "steps" sends
    have spaced : Spaced (v.heap.alloc (.dict #[(.str "steps", config)])).2 (.ref v.heap.objects.size) := by
      intro inner made
      cases (single_made v.heap "steps" config).symm.trans made
      rfl
    obtain ⟨k, w', more, done, behind⟩ := enters_again behind (named.mono within) sends spaced ran
    exact ⟨k, a, w', within.trans more, done, trivial, behind⟩
  | false =>
    obtain ⟨g, w', within, done, behind⟩ := enters_again behind named sends (spaced.grown behind.heap.grown there) ran
    exact ⟨g, a, w', within, done, trivial, behind⟩

/-- What was found to be wrong is remembered, whatever is built. -/
theorem problems_steady : Steady (fun w w' : World => w'.problems = [] → w.problems = []) where
  refl _ := id
  trans first second := first ∘ second
  heap _ _ _ := id
  compiled _ _ _ _ := id
  logged _ _ := id
  reported w p none := by simp at none
  registered _ _ := id
  attached _ _ := id

/-- A schema is built again, if nothing was found to be wrong with it. -/
theorem buildSchema_again {id id' config config' : Value} (named : f.Sends id id') (sends : f.Sends config config')
    (spaced : Spaced start config) (there : ∀ a ∈ config.addresses, a < start.objects.size) {v w v' : World}
    (behind : World.Behind start base f v w) (ran : buildSchema id config v = .ok () v') (none : v'.problems = []) :
    ∃ g w', f.Within g ∧ buildSchema id' config' w = .ok () w' ∧ World.Behind start base g v' w' := by
  simp only [buildSchema, Job.attempt, Bind.bind, EStateM.bind] at ran ⊢
  cases registered : registerSchema id config v with
  | ok a v₁ =>
    obtain ⟨g, b, w', within, registered', -, behind⟩ :=
      registerSchema_follows named sends spaced there v w a v₁ behind registered
    rw [registered] at ran
    cases ran
    rw [registered']
    exact ⟨g, w', within, rfl, behind⟩
  | error fault v₁ =>
    rw [registered] at ran
    simp only at ran
    split at ran
    · simp only [EStateM.bind, Script.get_result] at ran
      split at ran
      · cases ran
        simp at none
      · cases ran
    · cases ran

/-- The schemas of a document are built again. -/
theorem buildSchemas_again {row row' : List (Value × Value)} (sent : List.Forall₂ (Script.Entry.Sent f) row row')
    (spaced : ∀ entry ∈ row, Spaced start entry.2 ∧ ∀ a ∈ entry.2.addresses, a < start.objects.size) {v w v' : World}
    (behind : World.Behind start base f v w) (ran : (row.forM fun entry => buildSchema entry.1 entry.2) v = .ok () v')
    (none : v'.problems = []) :
    ∃ g w', f.Within g ∧ (row'.forM fun entry => buildSchema entry.1 entry.2) w = .ok () w' ∧
      World.Behind start base g v' w' := by
  induction row generalizing row' f v w with
  | nil =>
    cases sent
    cases ran
    exact ⟨f, w, .refl f, rfl, behind⟩
  | cons entry rest ih =>
    cases sent with
    | @cons _ entry' _ rest' first others =>
      obtain ⟨_, v₁, built, goes⟩ := Work.bind_ok ran
      have remembers : v'.problems = [] → v₁.problems = [] :=
        Along.ok (problems_steady.forM (fun entry => problems_steady.buildSchema _ _) rest) goes
      obtain ⟨spacedHere, there⟩ := spaced entry List.mem_cons_self
      obtain ⟨g, w₁, within, built', behind⟩ :=
        buildSchema_again first.key first.value spacedHere there behind built (remembers none)
      obtain ⟨k, w', more, goes', behind⟩ := ih (others.imp (fun _ _ same => same.mono within))
        (fun e member => spaced e (List.mem_cons_of_mem _ member)) behind goes
      exact ⟨k, w', within.trans more, (Work.ok_bind built').trans goes', behind⟩

/-- A section of a document is opened again. -/
theorem section_again {x x' : Value} {name : String} {found : Entries} {v w v' : World} (behind : World.Behind start base f v w)
    (sends : f.Sends x x') (ran : sectionEntries x name v = .ok found v') :
    v' = v ∧ (∃ entries, x.entries? v.heap = some entries ∧ (valueOf entries name).entries? v.heap = some found ∧
      f.Covers (valueOf entries name)) ∧
      ∃ found', sectionEntries x' name w = .ok found' w ∧ Entries.Sent f found found' := by
  obtain ⟨y, v₁, parted, goes⟩ := Work.bind_ok ran
  obtain ⟨rfl, ⟨entries, made, named⟩, parted', covers⟩ := part_again behind sends parted
  obtain rfl : valueOf entries name = y := by rw [valueOf, named, Option.getD_some]
  simp only [entries?, Bind.bind, EStateM.bind, Script.get_result] at goes
  obtain ⟨same, covered⟩ := behind.heap.renamed.entries? covers
  cases opened : (valueOf entries name).entries? v₁.heap with
  | none =>
    rw [opened] at goes
    cases goes
  | some inner =>
    rw [opened] at goes same
    cases goes
    refine ⟨rfl, ⟨entries, made, opened, covers⟩, Entries.rename found f.map, ?_, covered found opened, rfl⟩
    rw [sectionEntries, Work.ok_bind parted']
    simp only [entries?, Bind.bind, EStateM.bind, Script.get_result, same]
    rfl

/-- The steps of a document are built again. -/
theorem buildSteps_follow {row row' : List (Value × Value)} (sent : List.Forall₂ (Script.Entry.Sent f) row row')
    (defines : ∀ entry ∈ row, Defines start entry.2) :
    Job.Follows start base f Whatever (row.forM fun entry => buildStep entry.1 entry.2)
      (row'.forM fun entry => buildStep entry.1 entry.2) := by
  induction row generalizing row' f with
  | nil =>
    cases sent
    exact .pure trivial
  | cons entry rest ih =>
    cases sent with
    | cons first others =>
      refine (buildStep_follows first.key first.value (defines entry List.mem_cons_self)).bind (fun g _ _ within _ => ?_)
      exact ih (others.imp (fun _ _ same => same.mono within)) (fun e member => defines e (List.mem_cons_of_mem _ member))

/-- All that a document declares is registered again. -/
theorem registerAll_again {document document' : Value} {v w v' : World} (sends : f.Sends document document')
    (registrable : Registrable v.heap document) (behind : World.Behind v.heap base f v w)
    (ran : registerAll document v = .ok () v') :
    ∃ g w', f.Within g ∧ registerAll document' w = .ok () w' ∧ World.Behind v.heap base g v' w' := by
  have early {k : Value} (covers : f.Covers k) : ∀ a ∈ k.addresses, a < v.heap.objects.size :=
    fun a member => (behind.heap.renamed.inside (covers a member)).1
  obtain ⟨_, v₁, forgot, goes₁⟩ := Work.bind_ok ran
  obtain rfl : { v with problems := [] } = v₁ := by
    cases forgot
    rfl
  have cleared : World.Behind v.heap base f { v with problems := [] } { w with problems := [] } :=
    ⟨behind.heap, behind.registry, behind.evaluators, by simp⟩
  obtain ⟨steps, v₂, opened, goes₂⟩ := Work.bind_ok goes₁
  obtain ⟨rfl, ⟨entries, made, inside, -⟩, steps', opened', sentSteps⟩ := section_again cleared sends opened
  obtain ⟨_, v₃, built, goes₃⟩ := Work.bind_ok goes₂
  obtain ⟨f₃, _, w₃, within, built', -, behind₃⟩ :=
    buildSteps_follow sentSteps.row (registrable.steps entries steps made inside) _ _ _ _ cleared built
  obtain ⟨schemas, v₄, found, goes₄⟩ := Work.bind_ok goes₃
  obtain ⟨rfl, ⟨entries', made', inside', -⟩, schemas', found', sentSchemas⟩ := section_again behind₃ (sends.mono within) found
  -- the schemas are those that the document had at the start
  cases (entries_early behind₃.heap.grown (early sends.1) made').symm.trans made
  have sentEntries : Entries.Sent f entries _ := ⟨(behind.heap.renamed.entries? sends.1).2 entries made, rfl⟩
  have covers := (sentEntries.valueOf "schemas").1
  have begun := entries_early behind₃.heap.grown (early covers) inside'
  have covered := (behind.heap.renamed.entries? covers).2 schemas begun
  obtain ⟨_, v₅, stored, concluded⟩ := Work.bind_ok goes₄
  have none : v₅.problems = [] := (conclude_ok concluded).2
  obtain ⟨f₅, w₅, more, stored', behind₅⟩ := buildSchemas_again sentSchemas.row (fun entry member =>
    ⟨registrable.schemas entries schemas made begun entry member, early (covered entry (Array.mem_toList_iff.mp member)).2⟩)
    behind₃ stored none
  obtain ⟨f₆, _, w₆, further, concluded', -, behind₆⟩ := Follows.of_alike Job.Repeats.conclude _ _ _ _ behind₅ concluded
  refine ⟨f₆, w₆, (within.trans more).trans further, ?_, behind₆⟩
  exact (Work.ok_bind rfl).trans ((Work.ok_bind opened').trans ((Work.ok_bind built').trans ((Work.ok_bind found').trans
    ((Work.ok_bind stored').trans concluded'))))

/-- An executor is built again from a document. -/
theorem build_again {document document' : Value} {v w v' : World} (sends : f.Sends document document')
    (registrable : Registrable v.heap document) (behind : World.Behind v.heap base f v w)
    (ran : build document v = .ok () v') :
    ∃ g w', f.Within g ∧ build document' w = .ok () w' ∧ World.Behind v.heap base g v' w' := by
  have bare : World.Behind v.heap base f { v with registry := {}, listeners := [] } { w with registry := {}, listeners := [] } :=
    ⟨behind.heap, ⟨.nil, .nil⟩, behind.evaluators, behind.problems⟩
  simp only [build, Job.attempt, Bind.bind, EStateM.bind, Script.get_result, Script.set_result] at ran ⊢
  cases registered : registerAll document { v with registry := {}, listeners := [] } with
  | ok a v₁ =>
    obtain ⟨g, w', within, registered', behind⟩ :=
      registerAll_again (v := { v with registry := {}, listeners := [] }) sends registrable bare registered
    rw [registered] at ran
    cases ran
    rw [registered']
    exact ⟨g, w', within, rfl, behind⟩
  | error fault v₁ =>
    rw [registered] at ran
    cases ran

/-- A document that is read from a text is read again, and it can be registered. -/
theorem parsed_again {failure text : String} {document : Value} {v w v' : World} (behind : World.Behind {} base f v w)
    (ran : parsed failure text v = .ok document v') :
    Registrable v'.heap document ∧ ∃ g document' w', f.Within g ∧ parsed failure text w = .ok document' w' ∧
      g.Sends document document' ∧ World.Behind {} base g v' w' := by
  obtain ⟨found, v₁, read, goes⟩ := Work.bind_ok ran
  cases found with
  | error fault =>
    obtain ⟨_, v₂, reported, goes⟩ := Work.bind_ok goes
    obtain ⟨_, v₃, concluded, -⟩ := Work.bind_ok goes
    cases reported
    have none := (conclude_ok concluded).2
    simp at none
  | ok x =>
    obtain ⟨h, made, rfl⟩ := Job.act_ok read
    obtain ⟨g, x', k', within, made', sends, heaps⟩ := Yaml.valueOf_again behind.heap made
    have behind : World.Behind {} base g { v with heap := h } { w with heap := k' } :=
      ⟨heaps, behind.registry.mono within, behind.evaluators, behind.problems⟩
    obtain ⟨_, v₂, valid, returned⟩ := Work.bind_ok goes
    cases returned
    obtain ⟨k, _, w₂, more, valid', -, behind⟩ := Follows.of_alike (Job.Repeats.validate sends) _ _ _ _ behind valid
    refine ⟨validate_registrable valid, k, x', w₂, within.trans more, ?_, sends.mono more, behind⟩
    have read' : Job.act (Yaml.valueOf text) w = .ok (.ok x') { w with heap := k' } := by simp only [Job.act, made']
    exact (Work.ok_bind read').trans ((Work.ok_bind valid').trans rfl)

theorem ofFile_eq (path : FilePath) (w : World) : ofFile path w = (match w.files.read path with
    | .ok text => parsed "Failed to load workflow" text
    | .error _ => do
      Job.report "Failed to load workflow"
      conclude
      return .nothing) { w with problems := [] } := rfl

/-- A document comes from a file that can be read. -/
theorem ofFile_reads {path : FilePath} {document : Value} {v v' : World} (ran : ofFile path v = .ok document v') :
    ∃ text, v.files.read path = .ok text := by
  rw [ofFile_eq] at ran
  cases read : v.files.read path with
  | ok text => exact ⟨text, rfl⟩
  | error e =>
    rw [read] at ran
    obtain ⟨_, v₁, reported, goes⟩ := Work.bind_ok ran
    obtain ⟨_, v₂, concluded, -⟩ := Work.bind_ok goes
    cases reported
    have none := (conclude_ok concluded).2
    simp at none

/-- A document that is read from a file is read again from a file with the same text. -/
theorem ofFile_again {path path' : FilePath} {document : Value} {v w v' : World} (behind : World.Behind {} base f v w)
    (same : w.files.read path' = v.files.read path) (ran : ofFile path v = .ok document v') :
    Registrable v'.heap document ∧ ∃ g document' w', f.Within g ∧ ofFile path' w = .ok document' w' ∧
      g.Sends document document' ∧ World.Behind {} base g v' w' ∧ w.files.exists? path' = true := by
  obtain ⟨text, read⟩ := ofFile_reads ran
  have cleared : World.Behind {} base f { v with problems := [] } { w with problems := [] } :=
    ⟨behind.heap, behind.registry, behind.evaluators, by simp⟩
  rw [ofFile_eq, read] at ran
  rw [ofFile_eq, same, read]
  obtain ⟨registrable, g, document', w', within, ran', sends, behind⟩ := parsed_again cleared ran
  exact ⟨registrable, g, document', w', within, ran', sends, behind, FileTree.exists?_of_read (same.trans read)⟩

end Document

/-! Loading. -/

theorem Command.loadWorkflow_eq (file : String) (w : World) : loadWorkflow file w =
    (if !w.files.exists? ((FilePath.ofText file).resolve w.files.home) then (do
        Job.fail (.missing .workflow ((FilePath.ofText file).resolve w.files.home).text)
        Job.log .info runLogger s!"Loading workflow: {((FilePath.ofText file).resolve w.files.home).text}"
        Document.build (← Document.ofFile ((FilePath.ofText file).resolve w.files.home)))
      else do
        Job.log .info runLogger s!"Loading workflow: {((FilePath.ofText file).resolve w.files.home).text}"
        Document.build (← Document.ofFile ((FilePath.ofText file).resolve w.files.home))) w := rfl

/-- A workflow that is loaded comes from a file that can be read. -/
theorem Command.loadWorkflow_reads {file : String} {w w' : World} (ran : loadWorkflow file w = .ok () w') :
    ∃ text, w.files.read ((FilePath.ofText file).resolve w.files.home) = .ok text := by
  rw [loadWorkflow_eq] at ran
  split at ran
  · cases ran
  · obtain ⟨_, _, logged, goes⟩ := Work.bind_ok ran
    cases logged
    obtain ⟨document, _, read, -⟩ := Work.bind_ok goes
    obtain ⟨text, found⟩ := Document.ofFile_reads read
    exact ⟨text, found⟩

/-- A workflow that was loaded once is loaded again, if its file holds the same text. -/
theorem Command.loadWorkflow_again {file : String} {v w v' : World} (behind : World.Behind {} base f v w)
    (same : w.files.read ((FilePath.ofText file).resolve w.files.home) =
      v.files.read ((FilePath.ofText file).resolve v.files.home))
    (ran : loadWorkflow file v = .ok () v') :
    ∃ g w', f.Within g ∧ loadWorkflow file w = .ok () w' ∧ World.Behind {} base g v' w' := by
  rw [loadWorkflow_eq] at ran ⊢
  generalize (FilePath.ofText file).resolve v.files.home = path, (FilePath.ofText file).resolve w.files.home = path' at same ran ⊢
  split at ran
  · cases ran
  · obtain ⟨_, v₁, logged, goes⟩ := Work.bind_ok ran
    cases logged
    obtain ⟨document, v₂, read, built⟩ := Work.bind_ok goes
    let telling (u : World) (path : FilePath) : World := { u with
      journal := u.journal.push (.logged { logger := runLogger, level := .info, message := s!"Loading workflow: {path.text}" }) }
    have noted : World.Behind {} base f (telling v path) (telling w path') :=
      ⟨behind.heap, behind.registry, behind.evaluators, behind.problems⟩
    obtain ⟨registrable, g, document', w₂, within, read', sends, behind₂, there⟩ := Document.ofFile_again noted same read
    have started : World.Behind v₂.heap base g v₂ w₂ :=
      ⟨behind₂.heap.begin, behind₂.registry, behind₂.evaluators, behind₂.problems⟩
    obtain ⟨k, w₃, more, built', behind₃⟩ := Document.build_again sends registrable started built
    refine ⟨k, w₃, within.trans more, ?_, ?_⟩
    · rw [there]
      exact (Work.ok_bind rfl).trans ((Work.ok_bind read').trans built')
    · have heaps := behind₃.heap
      exact ⟨⟨heaps.renamed, heaps.apart, heaps.kept, behind₂.heap.grown.trans heaps.grown⟩, behind₃.registry,
        behind₃.evaluators, behind₃.problems⟩

end Workflow
