import Workflow.Document

/-! What the checks of documents are made of. They look values up, write texts, report problems and compile handlers, one after
the other, so that what holds of each of these and of a sequence holds of a validation up to its verdict. -/

namespace Workflow.Document
open Script (Act Addr Entries Heap Value)

/-- A validation up to its verdict. -/
def checks (document : Value) : Job Unit := do
  match ← entries? document with
  | none => Job.report "Workflow must be a YAML object/dictionary"
  | some entries => do
    checkVersion (valueOf entries "version")
    checkFields fields "Unknown field" "" entries.toList
    checkSection "steps" checkSteps (valueOf entries "steps")
    checkSection "schemas" checkSchemas (← optionalPart document "schemas")

theorem validate_eq (document : Value) : validate document = checks document >>= fun _ => conclude := by
  unfold validate checks
  rw [bind_assoc]
  refine congrArg _ (funext fun found => ?_)
  cases found <;> simp only [bind_assoc]

/-- A property of jobs that the parts of checks have, and that sequences have if their parts do. -/
structure Checking (P : {α : Type} → Job α → Prop) : Prop where
  pure : ∀ {α : Type} (a : α), P (Pure.pure a)
  bind : ∀ {α β : Type} {x : Job α} {k : α → Job β}, P x → (∀ a, P (k a)) → P (x >>= k)
  look : ∀ {α : Type} {k : Heap → Job α}, (∀ h, P (k h)) → P (MonadState.get >>= fun w => k w.heap)
  act : ∀ {α : Type} (a : Act α), P (Job.act a)
  report : ∀ message path, P (Job.report message path)
  handler : ∀ path handler, P (checkHandler path handler)

namespace Checking
variable {P : {α : Type} → Job α → Prop} (checking : Checking P)
include checking

theorem forM {k : α → Job PUnit} (each : ∀ a, P (k a)) (items : List α) : P (items.forM k) := by
  induction items with
  | nil => exact checking.pure _
  | cons a rest ih => exact checking.bind (each a) (fun _ => ih)

theorem either {c : Prop} [Decidable c] {x : Job α} {k : α → Job β} {y : Job β} (first : P x) (rest : ∀ a, P (k a)) (other : P y) :
    P (if c then x >>= k else y) := by
  split
  · exact checking.bind first rest
  · exact other

theorem shown (v : Value) : P (Job.shown v) := checking.act _

theorem entries? (v : Value) : P (Document.entries? v) :=
  checking.look (k := fun h => Pure.pure (v.entries? h)) (fun _ => checking.pure _)

theorem isList (v : Value) : P (Document.isList v) :=
  checking.look (k := fun h => Pure.pure (v.listItems? h).isSome) (fun _ => checking.pure _)

theorem isTrue (v : Value) : P (Document.isTrue v) :=
  checking.look (k := fun h => Pure.pure (v.truth h)) (fun _ => checking.pure _)

theorem optionalPart (v : Value) (name : String) : P (Document.optionalPart v name) :=
  checking.bind (checking.entries? v) (fun _ => checking.pure _)

theorem checkVersion (version : Value) : P (Document.checkVersion version) := by
  refine checking.bind (checking.isTrue _) (fun _ => ?_)
  split
  · exact checking.report _ _
  · split
    · split
      · exact checking.report _ _
      · exact checking.pure _
    · exact checking.look (k := fun h => Job.report s!"'version' field must be a string, got {version.className h}")
        (fun _ => checking.report _ _)

theorem checkFields (names : List String) (text path : String) (entries : List (Value × Value)) :
    P (Document.checkFields names text path entries) := by
  induction entries with
  | nil => exact checking.pure _
  | cons entry rest ih =>
    obtain ⟨key, v⟩ := entry
    unfold Document.checkFields
    dsimp only
    split
    · exact checking.bind (checking.shown _) (fun _ => checking.bind (checking.report _ _) (fun _ => ih))
    · exact ih

theorem definition (steps : Addr) (id config : Value) : P (Document.definition steps id config) := by
  unfold Document.definition
  split
  · exact checking.bind (checking.act _) (fun _ => checking.bind (checking.act _) (fun _ => checking.pure _))
  · exact checking.pure _

theorem checkStep (steps : Addr) (id config : Value) : P (Document.checkStep steps id config) := by
  refine checking.bind (checking.shown _) (fun shown => ?_)
  dsimp only
  split
  · exact checking.report _ _
  · refine checking.bind (checking.definition _ _ _) (fun config => checking.bind (checking.entries? _) (fun found => ?_))
    split
    · exact checking.report _ _
    · refine checking.bind (checking.checkFields _ _ _ _) (fun _ => checking.bind (checking.handler _ _) (fun _ => ?_))
      split
      · exact checking.pure _
      · refine checking.bind (checking.entries? _) (fun globals => ?_)
        split
        · exact checking.report _ _
        · exact checking.pure _
  · exact checking.bind (checking.act _) (fun _ => checking.report _ _)

theorem checkSteps (steps : Value) : P (Document.checkSteps steps) := by
  refine checking.bind (checking.entries? _) (fun found => ?_)
  split
  · exact checking.forM (fun entry => checking.checkStep _ _ _) _
  · exact checking.report _ _

theorem checkSchema (id config : Value) : P (Document.checkSchema id config) := by
  refine checking.bind (checking.shown _) (fun shown => checking.bind (checking.isList _) (fun listed => ?_))
  split
  · exact checking.pure _
  · refine checking.bind (checking.entries? _) (fun found => ?_)
    split
    · exact checking.report _ _
    · refine checking.bind (checking.checkFields _ _ _ _) (fun _ => checking.bind (checking.isList _) (fun listed => ?_))
      extract_lets rest
      have spaced : ∀ u, P (rest u) := by
        intro u
        dsimp only [rest]
        split
        · exact checking.report _ _
        · exact checking.pure _
      exact checking.either (checking.report _ _) spaced (spaced ())

theorem checkSchemas (schemas : Value) : P (Document.checkSchemas schemas) := by
  refine checking.bind (checking.entries? _) (fun found => ?_)
  split
  · exact checking.forM (fun entry => checking.checkSchema _ _) _
  · exact checking.report _ _

theorem checkSection (name : String) {check : Value → Job Unit} (checked : ∀ v, P (check v)) (v : Value) :
    P (Document.checkSection name check v) := by
  refine checking.bind (checking.isTrue _) (fun _ => ?_)
  split
  · exact checked v
  · exact checking.report _ _

theorem checks (document : Value) : P (Document.checks document) := by
  refine checking.bind (checking.entries? _) (fun found => ?_)
  split
  · exact checking.report _ _
  · refine checking.bind (checking.checkVersion _) (fun _ => checking.bind (checking.checkFields _ _ _ _) (fun _ => ?_))
    refine checking.bind (checking.checkSection _ checking.checkSteps _) (fun _ => ?_)
    exact checking.bind (checking.optionalPart _ _) (fun schemas => checking.checkSection _ checking.checkSchemas _)

end Checking

end Workflow.Document
