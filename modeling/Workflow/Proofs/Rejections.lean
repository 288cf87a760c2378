import Workflow.Command.Outcome
import Workflow.Proofs.Checks
import Workflow.Proofs.Resolution

/-! What the loading of a document fails with. Whatever is wrong with the sources of its steps and conditions, or with its
schemas, is among the problems of the document. What remains are stops on the way, and sources with a part that is out of
place. -/

namespace Workflow
open Script (Act Entries Value)

namespace Fault

/-- A source does not compile. -/
def IsRefusal : Fault → Prop
  | .refusedSource _ _ => True
  | .misplaced => True
  | _ => False

/-- Something is wrong with the setup of a schema, or a part of a source is out of place. -/
def IsSetup (f : Fault) : Prop := f.IsStop ∨ f = .misplaced ∨ f.isConfiguration = true

/-- A fault that comes up before all problems of a document are known. -/
def IsBreach : Fault → Prop
  | .stopped _ => True
  | .misplaced => True
  | .duplicateStep _ => True
  | .invalid _ => True
  | _ => False

/-- A fault of the loading of a document. -/
def IsRejection : Fault → Prop
  | .invalidDocument _ => True
  | .missing .workflow _ => True
  | .stopped _ => True
  | .misplaced => True
  | .duplicateStep _ => True
  | .invalid _ => True
  | _ => False

theorem IsStop.breach {f : Fault} (stop : f.IsStop) : f.IsBreach := by
  cases f with
  | stopped => trivial
  | _ => cases stop

theorem IsBreach.rejection {f : Fault} (breach : f.IsBreach) : f.IsRejection := by
  cases f with
  | stopped => trivial
  | misplaced => trivial
  | duplicateStep => trivial
  | invalid => trivial
  | _ => cases breach

theorem IsSetup.breach {f : Fault} (setup : f.IsSetup) (unreported : f.isConfiguration ≠ true) : f.IsBreach := by
  obtain stop | rfl | reported := setup
  · exact stop.breach
  · trivial
  · exact absurd reported unreported

end Fault

namespace FailsOnly
variable {P Q : Fault → Prop}

theorem stops {x : Job α} (fails : FailsOnly Fault.IsStop x) : FailsOnly Fault.IsBreach x :=
  fails.mono (fun _ => Fault.IsStop.breach)

theorem breaches {x : Job α} (fails : FailsOnly Fault.IsBreach x) : FailsOnly Fault.IsRejection x :=
  fails.mono (fun _ => Fault.IsBreach.rejection)

theorem setup {x : Job α} (fails : FailsOnly Fault.IsStop x) : FailsOnly Fault.IsSetup x := fails.mono (fun _ => .inl)

theorem set (w : World) : FailsOnly P (MonadStateOf.set w : Job PUnit) := by
  intro w fault w' failed
  cases failed

theorem modify (f : World → World) : FailsOnly P (modifyGet (fun w => ((), f w)) : Job PUnit) := by
  intro w fault w' failed
  cases failed

theorem report (message path : String) : FailsOnly P (Job.report message path) := by
  intro w fault w' failed
  cases failed

theorem forM {k : α → Job PUnit} (each : ∀ a, FailsOnly P (k a)) (items : List α) : FailsOnly P (items.forM k) := by
  induction items with
  | nil => exact pure _
  | cons a rest ih => exact (each a).bind (fun _ => ih)

theorem either {c : Prop} [Decidable c] {x : Job α} {k : α → Job β} {y : Job β} (first : FailsOnly P x)
    (rest : ∀ a, FailsOnly P (k a)) (other : FailsOnly P y) : FailsOnly P (if c then x >>= k else y) := by
  split
  · exact first.bind rest
  · exact other

/-- What is caught of some work is only what the work fails with. -/
theorem caught {x : Job α} {k : Except Fault α → Job β} (fails : FailsOnly Q x) (goes : ∀ a, FailsOnly P (k (.ok a)))
    (caught : ∀ f, Q f → FailsOnly P (k (.error f))) : FailsOnly P (Job.attempt x >>= k) := by
  intro w fault w' failed
  simp only [Job.attempt, Bind.bind, EStateM.bind] at failed
  cases ran : x w with
  | ok a w₁ =>
    rw [ran] at failed
    exact goes a w₁ fault w' failed
  | error f w₁ =>
    rw [ran] at failed
    exact caught f (fails w f w₁ ran) w₁ fault w' failed

theorem compile_refuses (source : String) : FailsOnly Fault.IsRefusal (Job.compile source) := by
  intro w fault w' failed
  cases made : w.evaluator.compile source with
  | ok found =>
    obtain ⟨w₁, same⟩ := Job.compile_found made
    cases same.symm.trans failed
  | error refusal =>
    unfold Job.compile Job.compiled at failed
    simp only [Bind.bind, EStateM.bind, Script.get_result, made] at failed
    cases refusal <;> cases failed <;> trivial

/-! Checks of documents. -/

theorem entries? (v : Value) : FailsOnly P (Document.entries? v) := get.bind (fun _ => pure _)

theorem isList (v : Value) : FailsOnly P (Document.isList v) := get.bind (fun _ => pure _)

theorem optionalPart (v : Value) (name : String) : FailsOnly P (Document.optionalPart v name) :=
  (entries? _).bind (fun _ => pure _)

theorem conclude : FailsOnly Fault.IsRejection Document.conclude := by
  refine get.bind (fun w => ?_)
  dsimp only
  split
  · exact fail trivial
  · exact pure _

/-- A handler that is refused is reported. -/
theorem checkHandler (path : String) (handler : Value) : FailsOnly Fault.IsBreach (Document.checkHandler path handler) := by
  unfold Document.checkHandler
  split
  · split
    · exact report _ _
    · refine (compile_refuses _).caught (fun _ => pure _) (fun f refuses => ?_)
      cases f with
      | refusedSource source refusal => exact report _ _
      | misplaced => exact fail trivial
      | _ => cases refuses
  · exact report _ _

theorem checking : Document.Checking (fun job => FailsOnly Fault.IsBreach job) where
  pure := pure
  bind := bind
  look each := get.bind (fun w => each w.heap)
  act a := (act a).stops
  report := report
  handler := checkHandler

theorem validate (document : Value) : FailsOnly Fault.IsRejection (Document.validate document) := by
  rw [Document.validate_eq]
  exact (checking.checks document).breaches.bind (fun _ => conclude)

theorem ofFile (path : FilePath) : FailsOnly Fault.IsRejection (Document.ofFile path) := by
  refine (modify _).bind (fun _ => get.bind (fun w => ?_))
  split
  · refine (act _).stops.breaches.bind (fun read => ?_)
    split
    · exact (report _ _).bind (fun _ => conclude.bind (fun _ => pure _))
    · exact (validate _).bind (fun _ => pure _)
  · exact (report _ _).bind (fun _ => conclude.bind (fun _ => pure _))

/-! Executors from documents. -/

theorem sectionEntries (document : Value) (name : String) : FailsOnly Fault.IsStop (Document.sectionEntries document name) := by
  refine (act _).bind (fun v => (entries? _).bind (fun found => ?_))
  split
  · exact pure _
  · exact get.bind (fun _ => act _)

theorem make (id handler input globals : Value) : FailsOnly Fault.IsBreach (Step.make id handler input globals) := by
  unfold Step.make
  extract_lets withId
  have handled : ∀ id, FailsOnly Fault.IsBreach (withId id) := by
    intro id
    unfold withId
    extract_lets withHandler
    have bound : ∀ handler, FailsOnly Fault.IsBreach (withHandler handler) := by
      intro handler
      exact get.bind (fun w => either (act _).stops (fun _ => pure _) ((pure _).bind (fun _ => pure _)))
    split
    · exact (pure _).bind bound
    · exact get.bind (fun w => either (pure _) bound ((refuse trivial).bind bound))
  split
  · exact either (refuse trivial) handled ((pure _).bind handled)
  · exact (act _).stops.bind (fun _ => (refuse trivial).bind handled)

theorem addStep (s : Step) : FailsOnly Fault.IsBreach (Executor.addStep s) := by
  refine get.bind (fun w => ?_)
  exact either (fail trivial) (fun _ => (set _).bind (fun _ => log _ _ _)) ((set _).bind (fun _ => log _ _ _))

theorem buildStep (id config : Value) : FailsOnly Fault.IsBreach (Document.buildStep id config) := by
  unfold Document.buildStep
  extract_lets rest
  have built : ∀ config, FailsOnly Fault.IsBreach (rest config) := by
    intro config
    refine (act _).stops.bind (fun handler => (optionalPart _ _).bind (fun input => ?_))
    exact (optionalPart _ _).bind (fun globals => (make _ _ _ _).bind (fun s => addStep s))
  split
  · exact (act _).stops.bind built
  · exact (pure _).bind built

theorem space (v : Value) : FailsOnly Fault.IsStop (spaceOf v) :=
  get.bind (fun _ => either (shown _) (fun _ => pure _) (pure _))

theorem normalise (id items space : Value) : FailsOnly Fault.IsSetup (Workflow.normalise id items space) := by
  refine (FailsOnly.space _).setup.bind (fun space => get.bind (fun w => ?_))
  split
  · exact (act _).setup
  · split
    · exact pure _
    · exact (act _).setup.bind (fun _ => fail (.inr (.inr rfl)))

theorem checkSteps (schema : Value) (ids : List (Path × String)) : FailsOnly Fault.IsSetup (Executor.checkSteps schema ids) := by
  induction ids with
  | nil => exact pure _
  | cons entry rest ih => exact get.bind (fun w => either (fail (.inr (.inr rfl))) (fun _ => ih) ih)

/-- A condition that is refused is a fault of its schema. -/
theorem checkConditions (schema : Value) (conditions : List (Path × Condition)) :
    FailsOnly Fault.IsSetup (Executor.checkConditions schema conditions) := by
  induction conditions with
  | nil => exact pure _
  | cons entry rest ih =>
    obtain ⟨path, text | f⟩ := entry
    · rw [Executor.checkConditions]
      refine (compile_refuses _).caught (fun _ => ih) (fun f refuses => ?_)
      cases f with
      | refusedSource source refusal => exact (fail (.inr (.inr rfl))).bind (fun _ => ih)
      | misplaced => exact (fail (.inr (.inl rfl))).bind (fun _ => ih)
      | _ => cases refuses
    · exact ih

theorem register (id items space : Value) : FailsOnly Fault.IsSetup (Executor.register id items space) := by
  refine (act _).setup.bind (fun _ => get.bind (fun w => ?_))
  extract_lets note enter
  have noted : ∀ text, FailsOnly Fault.IsSetup (note text) := fun _ => (shown _).setup.bind (fun _ => log _ _ _)
  have entered : ∀ u, FailsOnly Fault.IsSetup (enter u) := by
    intro u
    refine (normalise _ _ _).bind (fun schema => (checkSteps _ _).bind (fun _ => (checkConditions _ _).bind (fun _ => ?_)))
    refine (modify _).bind (fun _ => (FailsOnly.space _).setup.bind (fun space => ?_))
    split
    · exact (pure _).bind noted
    · exact (pure _).bind noted
  exact either (fail (.inr (.inr rfl))) entered (entered ())

theorem registerSchema (id config : Value) : FailsOnly Fault.IsSetup (Document.registerSchema id config) := by
  refine (isList _).bind (fun listed => ?_)
  extract_lets rest
  have entered : ∀ config, FailsOnly Fault.IsSetup (rest config) := fun config =>
    (act _).setup.bind (fun _ => (optionalPart _ _).bind (fun _ => register _ _ _))
  exact either (act _).setup entered ((pure _).bind entered)

/-- What is wrong with the setup of a schema is reported. -/
theorem buildSchema (id config : Value) : FailsOnly Fault.IsBreach (Document.buildSchema id config) := by
  refine (registerSchema id config).caught (fun _ => pure _) (fun f setup => ?_)
  dsimp only
  split
  · exact get.bind (fun _ => (shown _).stops.bind (fun _ => report _ _))
  · next unreported => exact fail (setup.breach unreported)

theorem registerAll (document : Value) : FailsOnly Fault.IsRejection (Document.registerAll document) := by
  refine (modify _).bind (fun _ => (sectionEntries _ _).stops.breaches.bind (fun steps => ?_))
  refine (forM (fun entry => buildStep _ _) _).breaches.bind (fun _ => (sectionEntries _ _).stops.breaches.bind (fun schemas => ?_))
  exact (forM (fun entry => buildSchema _ _) _).breaches.bind (fun _ => conclude)

theorem build (document : Value) : FailsOnly Fault.IsRejection (Document.build document) := by
  refine get.bind (fun before => (set _).bind (fun _ => ?_))
  refine (registerAll document).caught (fun _ => pure _) (fun f rejects => ?_)
  exact (modify _).bind (fun _ => fail rejects)

/-- A workflow that is not loaded is missing or rejected. -/
theorem loadWorkflow (file : String) : FailsOnly Fault.IsRejection (Command.loadWorkflow file) := by
  refine get.bind (fun w => ?_)
  extract_lets files path rest
  have loaded : ∀ u, FailsOnly Fault.IsRejection (rest u) := fun _ =>
    (log _ _ _).bind (fun _ => (ofFile _).bind (fun _ => build _))
  exact either (fail trivial) loaded (loaded ())

end FailsOnly

end Workflow
