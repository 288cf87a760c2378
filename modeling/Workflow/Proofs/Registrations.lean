import Mathlib.Logic.Relation
import Workflow.Proofs.Keeping
import Workflow.Proofs.Names
import Workflow.Proofs.Walks

/-! The registry, over any history of an executor. Whatever is stored in it was checked before, nothing that is stored is
replaced, and a call that fails stores nothing. -/

namespace Workflow
open Script (Act Value)
open Engine (Query Work)

namespace Script.Evaluator
variable {e : Evaluator} {source : String}

/-- An evaluator remembers of each source what compiling it gives. -/
def Honest (e : Evaluator) : Prop :=
  ∀ source compiled, e.cached? source = some compiled → Script.compile source = .ok compiled.program

theorem Honest.compile (honest : e.Honest) {found : Outcome} (ran : e.compile source = .ok found) :
    found.evaluator.Honest ∧ Script.compile source = .ok found.compiled.program := by
  unfold Evaluator.compile at ran
  cases known : e.cached? source with
  | some compiled =>
    rw [known] at ran
    cases ran
    exact ⟨honest, honest source compiled known⟩
  | none =>
    rw [known] at ran
    cases made : Script.compile source with
    | error fault =>
      rw [made] at ran
      cases ran
    | ok program =>
      rw [made] at ran
      cases ran
      refine ⟨?_, rfl⟩
      intro other compiled remembered
      unfold cached? at remembered known
      rw [List.find?_append] at remembered
      cases earlier : e.cache.find? (·.1 == other) with
      | some entry =>
        rw [earlier] at remembered
        apply honest other compiled
        rw [cached?, earlier]
        exact remembered
      | none =>
        rw [earlier] at remembered
        by_cases same : source = other
        · subst same
          simp at remembered
          subst remembered
          exact made
        · simp [same] at remembered

theorem compile_of_ok {program : Script.Program} (made : Script.compile source = .ok program) :
    ∃ found, e.compile source = .ok found := by
  unfold Evaluator.compile
  cases known : e.cached? source with
  | some compiled => exact ⟨_, rfl⟩
  | none =>
    rw [made]
    exact ⟨_, rfl⟩

end Script.Evaluator

/-- Some work leaves the registry as it is, and an honest evaluator honest. -/
structure Apart (w w' : World) : Prop where
  registry : w'.registry = w.registry
  honest : w.evaluator.Honest → w'.evaluator.Honest

theorem Apart.of_heap {w w' : World} (registry : w'.registry = w.registry) (evaluator : w'.evaluator = w.evaluator) :
    Apart w w' := ⟨registry, fun known => evaluator ▸ known⟩

theorem Apart.tolerant : Tolerant (fun _ _ => True) Apart where
  refl _ := .of_heap rfl rfl
  trans first second := ⟨second.registry.trans first.registry, fun honest => second.honest (first.honest honest)⟩
  heap _ _ _ := .of_heap rfl rfl
  compiled _ _ _ ran := ⟨rfl, fun honest => (honest.compile ran).1⟩
  logged _ _ := .of_heap rfl rfl

namespace Job
variable {w w' : World} {source : String}

theorem compile_found {found : Script.Evaluator.Outcome} (ran : w.evaluator.compile source = .ok found) :
    ∃ w', compile source w = .ok found.compiled.program w' := by
  have compiled : ∃ w', Job.compiled source w = .ok found.compiled w' := by
    simp only [Job.compiled, Bind.bind, EStateM.bind, Script.get_result, ran]
    dsimp only [Script.set_result]
    split <;> exact ⟨_, rfl⟩
  obtain ⟨w', compiled⟩ := compiled
  exact ⟨w', Engine.bind_of_eq (a := .ok _) compiled⟩

theorem compile_refused {fault : Script.CompileFault} (ran : w.evaluator.compile source = .error fault) :
    ∃ refused, compile source w = .error refused w := by
  unfold compile Job.compiled
  simp only [Bind.bind, EStateM.bind, Script.get_result, ran]
  cases fault <;> exact ⟨_, rfl⟩

theorem compile_ok {program : Script.Program} (honest : w.evaluator.Honest) (ran : compile source w = .ok program w') :
    Script.compile source = .ok program := by
  cases made : w.evaluator.compile source with
  | error fault =>
    obtain ⟨refused, same⟩ := compile_refused made
    cases same.symm.trans ran
  | ok found =>
    obtain ⟨w₁, same⟩ := compile_found made
    cases same.symm.trans ran
    exact (honest.compile made).2

end Job

/-! What a schema that is stored was checked for. -/

/-- A stored schema is in order: at every depth, its steps are registered, its conditions that are sources compile, and its
markers lie in loops. -/
structure RegisteredSchema.Sound (r : Registry) (s : RegisteredSchema) : Prop where
  steps : ∀ cursors id literal, s.items.Asks cursors (.invoke id literal) → (r.step? id).isSome
  conditions : ∀ cursors role text, s.items.Asks cursors (.check role (.source text)) →
    ∃ program, Script.compile text = .ok program
  formed : Schema.Formed false s.items

def World.storing (w : World) (s : RegisteredSchema) : World :=
  { w with registry := { w.registry with schemas := w.registry.schemas ++ [s] } }

namespace Executor
variable {w w' : World}

theorem checkSteps_ok {schema : Value} {ids : List (Path × String)} (ran : checkSteps schema ids w = .ok () w') :
    ∀ entry ∈ ids, (w.registry.step? entry.2).isSome := by
  induction ids with
  | nil => exact List.forall_mem_nil _
  | cons entry rest ih =>
    obtain ⟨path, id⟩ := entry
    simp only [checkSteps, Bind.bind, EStateM.bind, Script.get_result] at ran
    cases known : w.registry.step? id with
    | none =>
      rw [known] at ran
      cases ran
    | some s =>
      rw [known] at ran
      refine List.forall_mem_cons.mpr ⟨?_, ih ran⟩
      rw [known]
      rfl

theorem checkConditions_ok {schema : Value} {conditions : List (Path × Condition)} (honest : w.evaluator.Honest)
    (ran : checkConditions schema conditions w = .ok () w') :
    ∀ path text, (path, Condition.source text) ∈ conditions → ∃ program, Script.compile text = .ok program := by
  induction conditions generalizing w with
  | nil => exact fun _ _ member => by cases member
  | cons entry rest ih =>
    obtain ⟨place, source | f⟩ := entry
    · rw [checkConditions] at ran
      obtain ⟨attempted, w₁, tried, ran⟩ := Work.bind_ok ran
      simp only [Job.attempt] at tried
      cases compiled : Job.compile source w with
      | error fault w₂ =>
        rw [compiled] at tried
        cases tried
        cases fault <;> cases ran
      | ok program w₂ =>
        rw [compiled] at tried
        cases tried
        have later : w₁.evaluator.Honest := (Along.ok (Apart.tolerant.compile source) compiled).honest honest
        intro path text member
        cases List.mem_cons.mp member with
        | inl same =>
          cases same
          exact ⟨program, Job.compile_ok honest compiled⟩
        | inr inside => exact ih later ran path text inside
    · intro path text member
      cases List.mem_cons.mp member with
      | inl same => cases same
      | inr inside => exact ih honest ran path text inside

theorem normalise_formed {id items space : Value} {schema : Schema} (ran : normalise id items space w = .ok schema w') :
    Schema.Formed false schema := by
  obtain ⟨named, w₁, -, ran⟩ := Work.bind_ok ran
  simp only [Bind.bind, EStateM.bind, Script.get_result] at ran
  cases read : Draft.ofValue? w₁.heap Script.depthLimit items with
  | none =>
    rw [read] at ran
    cases ran
  | some draft =>
    rw [read] at ran
    dsimp only at ran
    cases checked : draft.schema named with
    | error defect =>
      rw [checked] at ran
      obtain ⟨_, _, -, impossible⟩ := Work.bind_ok ran
      cases impossible
    | ok found =>
      rw [checked] at ran
      cases ran
      exact Draft.schema_formed checked

/-- The checks of a schema before it is stored. -/
def examine (id items space : Value) : Job Schema := do
  Job.act (Act.checkKey id)
  if ((← get).registry.schema? id).isSome then Job.fail (.duplicateSchema id)
  let schema ← normalise id items space
  checkSteps id schema.stepIds
  checkConditions id schema.conditions
  return schema

/-- What is logged of a schema that was stored. -/
def announce (id space : Value) : Job Unit := do
  let note ← match ← spaceOf space with
    | none => pure ""
    | some space => pure s!" (prefix '{space}')"
  Job.log .debug "stepflow.workflow.registry"
    s!"Registered workflow schema: {← Job.shown id}{note}"

/-- A schema is checked as a whole, then stored, and then the log tells of it. -/
theorem register_eq (id items space : Value) : register id items space =
    examine id items space >>= fun schema =>
      modify (fun w => w.storing ⟨id, schema, space⟩) >>= fun _ => announce id space := by
  simp only [register, examine, announce, World.storing, bind_assoc, pure_bind]
  refine congrArg _ (funext fun _ => congrArg _ (funext fun w => ?_))
  split <;> simp only [bind_assoc, pure_bind] <;> rfl

theorem examine_apart (id items space : Value) : Along Apart (examine id items space) := by
  have tolerant := Apart.tolerant
  have free (h h' : Script.Heap) : True := trivial
  refine tolerant.bind (tolerant.any free _) (fun _ => tolerant.bind tolerant.get (fun w => ?_))
  extract_lets enter
  have entered : ∀ u, Along Apart (enter u) := by
    intro u
    refine tolerant.bind (tolerant.normalise free _ _ _) (fun schema => ?_)
    refine tolerant.bind (tolerant.checkSteps _ _) (fun _ => ?_)
    exact tolerant.bind (tolerant.checkConditions _ _) (fun _ => tolerant.pure _)
  exact tolerant.either (tolerant.fail _) entered (entered ())

/-- A schema that passes has an id that is new, and is in order. -/
theorem examine_ok {id items space : Value} {schema : Schema} (honest : w.evaluator.Honest)
    (ran : examine id items space w = .ok schema w') :
    w.registry.schema? id = none ∧ RegisteredSchema.Sound w.registry ⟨id, schema, space⟩ := by
  have tolerant := Apart.tolerant
  have free (h h' : Script.Heap) : True := trivial
  obtain ⟨_, w₁, keyed, ran⟩ := Work.bind_ok ran
  have before : Apart w w₁ := Along.ok (tolerant.any free _) keyed
  obtain ⟨_, w₂, got, ran⟩ := Work.bind_ok ran
  cases got
  cases known : w₁.registry.schema? id with
  | some s =>
    rw [known] at ran
    cases ran
  | none =>
    rw [known] at ran
    obtain ⟨found, w₂, normal, ran⟩ := Work.bind_ok ran
    obtain ⟨_, w₃, steps, ran⟩ := Work.bind_ok ran
    obtain ⟨_, w₄, conditions, ran⟩ := Work.bind_ok ran
    cases ran
    have read : Apart w₁ w₂ := Along.ok (tolerant.normalise free _ _ _) normal
    have walked : Apart w₂ w₃ := Along.ok (tolerant.checkSteps _ _) steps
    have registry : w₂.registry = w.registry := read.registry.trans before.registry
    rw [before.registry] at known
    refine ⟨known, ?_, ?_, normalise_formed normal⟩
    · intro cursors step literal asks
      obtain ⟨path, met⟩ := asks.meets
      have there := checkSteps_ok steps _ met
      rwa [registry] at there
    · intro cursors role text asks
      obtain ⟨path, met⟩ := asks.meets
      exact checkConditions_ok (walked.honest (read.honest (before.honest honest))) conditions path text met

theorem announce_apart (id space : Value) : Along Apart (announce id space) := by
  have tolerant := Apart.tolerant
  have free (h h' : Script.Heap) : True := trivial
  refine tolerant.bind (tolerant.space free _) (fun space => ?_)
  have noted : ∀ text : String, Along Apart (do
      Job.log .debug "stepflow.workflow.registry" s!"Registered workflow schema: {← Job.shown id}{text}") :=
    fun text => tolerant.bind (tolerant.any free _) (fun _ => tolerant.log _ _ _)
  cases space with
  | none => exact tolerant.bind (tolerant.pure _) noted
  | some space => exact tolerant.bind (tolerant.pure _) noted

theorem addStep_cases (s : Step) (w : World) :
    addStep s w = .error (.duplicateStep s.id) w ∧ (w.registry.step? s.id).isSome ∨
    w.registry.step? s.id = none ∧ ∃ w', addStep s w = .ok () w' ∧
      w'.registry = { w.registry with steps := w.registry.steps ++ [s] } ∧ w'.evaluator = w.evaluator := by
  cases known : w.registry.step? s.id with
  | some other =>
    refine .inl ⟨?_, rfl⟩
    simp only [addStep, Bind.bind, EStateM.bind, Script.get_result, known]
    rfl
  | none =>
    refine .inr ⟨rfl, ?_⟩
    simp only [addStep, Bind.bind, EStateM.bind, Script.get_result, known]
    exact ⟨_, rfl, rfl, rfl⟩

/-- A step of given parts, before it is registered. -/
def newStep (id handler input : Value) : Job Step := do
  if !isPresent handler then Job.refuse (.noHandler (← Job.shown id))
  Step.make id handler input .nothing

theorem addNewStep_eq (id handler input : Value) :
    addNewStep id handler input = newStep id handler input >>= fun s => addStep s >>= fun _ => pure s := by
  simp only [addNewStep, newStep]
  split
  · simp only [bind_assoc]
  · rfl

theorem newStep_apart (id handler input : Value) : Along Apart (newStep id handler input) := by
  have tolerant := Apart.tolerant
  have free (h h' : Script.Heap) : True := trivial
  have made := tolerant.make free id handler input .nothing
  unfold newStep
  split
  · exact tolerant.bind (tolerant.any free _) (fun _ => tolerant.bind (tolerant.refuse _) (fun _ => made))
  · exact made

/-- Making a step and registering it fails without a trace, or registers the step. -/
theorem addNewStep_cases (id handler input : Value) (w : World) :
    (∃ fault w', addNewStep id handler input w = .error fault w' ∧ Apart w w') ∨
    ∃ s w₁ w', addNewStep id handler input w = .ok s w' ∧ Apart w w₁ ∧ w₁.registry.step? s.id = none ∧
      addStep s w₁ = .ok () w' := by
  rw [addNewStep_eq]
  have along := newStep_apart id handler input w
  cases made : newStep id handler input w with
  | error fault w' =>
    rw [made] at along
    refine .inl ⟨fault, w', ?_, along⟩
    rw [Engine.bind_of_eq (a := .error fault) made]
    rfl
  | ok s w₁ =>
    rw [made] at along
    rw [Engine.bind_of_eq (a := .ok s) made, Engine.answered_bind_ok]
    obtain ⟨known, -⟩ | ⟨new, w', added, -⟩ := addStep_cases s w₁
    · refine .inl ⟨.duplicateStep s.id, w₁, ?_, along⟩
      rw [Engine.bind_of_eq (a := .error _) known]
      rfl
    · refine .inr ⟨s, w₁, w', ?_, along, new, added⟩
      rw [Engine.bind_of_eq (a := .ok ()) added]
      rfl

/-- Registering a schema fails without a trace, or stores a schema that is in order before the log tells of it. -/
theorem register_cases (id items space : Value) (w : World) :
    (∃ fault w', register id items space w = .error fault w' ∧ Apart w w') ∨
    ∃ schema w₁, register id items space w = announce id space (w₁.storing ⟨id, schema, space⟩) ∧ Apart w w₁ ∧
      (w.evaluator.Honest → w.registry.schema? id = none ∧ RegisteredSchema.Sound w.registry ⟨id, schema, space⟩) := by
  rw [register_eq]
  have along := examine_apart id items space w
  cases examined : examine id items space w with
  | error fault w' =>
    rw [examined] at along
    refine .inl ⟨fault, w', ?_, along⟩
    rw [Engine.bind_of_eq (a := .error fault) examined]
    rfl
  | ok schema w₁ =>
    rw [examined] at along
    refine .inr ⟨schema, w₁, ?_, along, fun honest => examine_ok honest examined⟩
    rw [Engine.bind_of_eq (a := .ok schema) examined]
    rfl

end Executor

/-! Histories of an executor. -/

/-- One registration on an executor, however it ends, or something else that leaves the registry alone. -/
inductive Registering : World → World → Prop where
  | step (s : Step) (w : World) : Registering w (leftBy (Executor.addStep s w))
  | newStep (id handler input : Value) (w : World) : Registering w (leftBy (Executor.addNewStep id handler input w))
  | schema (id items space : Value) (w : World) : Registering w (leftBy (Executor.register id items space w))
  | other {w w' : World} (apart : Apart w w') : Registering w w'

/-- A world is left by some registrations, one after the other, that began in another world. -/
abbrev History := Relation.ReflTransGen Registering

/-- What a registration may do to the registry of an honest executor. -/
inductive Enters (r : Registry) : Registry → Prop where
  | nothing : Enters r r
  | step {s : Step} (new : r.step? s.id = none) : Enters r { r with steps := r.steps ++ [s] }
  | schema {s : RegisteredSchema} (new : r.schema? s.id = none) (sound : s.Sound r) :
      Enters r { r with schemas := r.schemas ++ [s] }

theorem Registering.enters {w w' : World} (registering : Registering w w') (honest : w.evaluator.Honest) :
    Enters w.registry w'.registry ∧ w'.evaluator.Honest := by
  have left {w w' : World} (apart : Apart w w') (honest : w.evaluator.Honest) :
      Enters w.registry w'.registry ∧ w'.evaluator.Honest := by
    rw [apart.registry]
    exact ⟨.nothing, apart.honest honest⟩
  cases registering with
  | other apart => exact left apart honest
  | step s =>
    obtain ⟨known, -⟩ | ⟨new, w', added, registry, evaluator⟩ := Executor.addStep_cases s w
    · rw [known]
      exact ⟨.nothing, honest⟩
    · rw [added, leftBy, registry, evaluator]
      exact ⟨.step new, honest⟩
  | newStep id handler input =>
    obtain ⟨fault, w', failed, apart⟩ | ⟨s, w₁, w', added, apart, new, entered⟩ := Executor.addNewStep_cases id handler input w
    · rw [failed]
      exact left apart honest
    · obtain ⟨known, -⟩ | ⟨-, w₂, same, registry, evaluator⟩ := Executor.addStep_cases s w₁
      · cases known.symm.trans entered
      · cases same.symm.trans entered
        rw [added, leftBy, registry, evaluator, apart.registry]
        rw [apart.registry] at new
        exact ⟨.step new, apart.honest honest⟩
  | schema id items space =>
    obtain ⟨fault, w', failed, apart⟩ | ⟨schema, w₁, stored, apart, checked⟩ := Executor.register_cases id items space w
    · rw [failed]
      exact left apart honest
    · obtain ⟨new, sound⟩ := checked honest
      have told := Executor.announce_apart id space (w₁.storing ⟨id, schema, space⟩)
      rw [stored]
      refine ⟨?_, told.honest (apart.honest honest)⟩
      rw [told.registry, World.storing, apart.registry]
      exact .schema new sound

/-- A registry is consistent: no id stands for two steps or for two schemas, and every stored schema is in order. -/
structure Registry.Consistent (r : Registry) : Prop where
  steps : r.steps.Pairwise (fun s t => s.id ≠ t.id)
  schemas : r.schemas.Pairwise (fun s t => s.id.sameKey t.id = false)
  sound : ∀ s ∈ r.schemas, s.Sound r

/-- Whatever was found in a registry is still found, and is the same. -/
structure Registry.Keeps (r r' : Registry) : Prop where
  steps : ∀ id s, r.step? id = some s → r'.step? id = some s
  schemas : ∀ id s, r.schema? id = some s → r'.schema? id = some s

namespace Registry.Keeps
variable {r r' r'' : Registry}

theorem refl (r : Registry) : r.Keeps r := ⟨fun _ _ found => found, fun _ _ found => found⟩

theorem trans (first : r.Keeps r') (second : r'.Keeps r'') : r.Keeps r'' where
  steps id s found := second.steps id s (first.steps id s found)
  schemas id s found := second.schemas id s (first.schemas id s found)

theorem addStep (r : Registry) (s : Step) : r.Keeps { r with steps := r.steps ++ [s] } where
  steps id t found := by
    rw [Registry.step?] at found ⊢
    rw [List.find?_append, found]
    rfl
  schemas _ _ found := found

theorem addSchema (r : Registry) (s : RegisteredSchema) : r.Keeps { r with schemas := r.schemas ++ [s] } where
  steps _ _ found := found
  schemas id t found := by
    rw [Registry.schema?] at found ⊢
    rw [List.find?_append, found]
    rfl

end Registry.Keeps

theorem RegisteredSchema.Sound.keeps {r r' : Registry} {s : RegisteredSchema} (sound : s.Sound r) (keeps : r.Keeps r') :
    s.Sound r' where
  steps cursors id literal asks := by
    obtain ⟨t, found⟩ := Option.isSome_iff_exists.mp (sound.steps cursors id literal asks)
    rw [keeps.steps id t found]
    rfl
  conditions := sound.conditions
  formed := sound.formed

namespace Enters
variable {r r' : Registry}

theorem keeps (enters : Enters r r') : r.Keeps r' := by
  cases enters with
  | nothing => exact .refl r
  | step new => exact .addStep r _
  | schema new sound => exact .addSchema r _

theorem consistent (enters : Enters r r') (before : r.Consistent) : r'.Consistent := by
  cases enters with
  | nothing => exact before
  | @step s new =>
    refine ⟨?_, before.schemas, fun t member => (before.sound t member).keeps (.addStep r s)⟩
    rw [List.pairwise_append]
    refine ⟨before.steps, List.pairwise_singleton _ _, ?_⟩
    intro t member u last same
    obtain rfl := List.mem_singleton.mp last
    exact List.find?_eq_none.mp new t member (beq_iff_eq.mpr same)
  | @schema s new sound =>
    refine ⟨before.steps, ?_, ?_⟩
    · rw [List.pairwise_append]
      refine ⟨before.schemas, List.pairwise_singleton _ _, ?_⟩
      intro t member u last
      obtain rfl := List.mem_singleton.mp last
      exact Bool.eq_false_iff.mpr (List.find?_eq_none.mp new t member)
    · intro t member
      cases List.mem_append.mp member with
      | inl earlier => exact (before.sound t earlier).keeps (.addSchema r s)
      | inr last =>
        rw [List.mem_singleton.mp last]
        exact sound.keeps (.addSchema r s)

end Enters

/-- An executor whose registry is consistent and whose evaluator is honest. -/
structure World.Consistent (w : World) : Prop where
  registry : w.registry.Consistent
  evaluator : w.evaluator.Honest

/-- An executor that is new. Its evaluator may have been used before. -/
structure World.New (w : World) : Prop where
  registry : w.registry = {}
  evaluator : w.evaluator.Honest

theorem World.New.consistent {w : World} (new : w.New) : w.Consistent where
  registry := by
    rw [new.registry]
    exact ⟨.nil, .nil, List.forall_mem_nil _⟩
  evaluator := new.evaluator

namespace History
variable {w w' : World}

/-- Over any history, the registry stays consistent and keeps what is in it. -/
theorem consistent (history : History w w') (before : w.Consistent) : w'.Consistent ∧ w.registry.Keeps w'.registry := by
  induction history with
  | refl => exact ⟨before, .refl _⟩
  | tail earlier last ih =>
    obtain ⟨consistent, keeps⟩ := ih
    obtain ⟨enters, honest⟩ := last.enters consistent.evaluator
    exact ⟨⟨enters.consistent consistent.registry, honest⟩, keeps.trans enters.keeps⟩

theorem of_apart (apart : Apart w w') : History w w' := .single (.other apart)

theorem tolerant : Tolerant (fun _ _ => True) History where
  refl _ := .refl
  trans first second := first.trans second
  heap _ _ _ := .of_apart (.of_heap rfl rfl)
  compiled w source found ran := .of_apart (Apart.tolerant.compiled w source found ran)
  logged _ _ := .of_apart (.of_heap rfl rfl)

end History

/-! A registration that fails stores nothing. -/

namespace Executor
variable {w w' : World} {fault : Fault}

end Executor

end Workflow
