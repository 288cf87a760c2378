import Workflow.Proofs.Telling

/-! Executions that chains of calls come to. Between the calls, anything may happen to the world but that the
schema is no longer registered, and a call may go on with another context than the one before. -/

namespace Workflow
open Script (Value)
open Engine (Deed Finish Position Proceeds Query answered answered_inj deeds)

/-- A schema is registered under an id. -/
def World.Registers (w : World) (id : String) (items : Schema) : Prop :=
  ∃ found, w.registry.schema? (.str id) = some found ∧ found.items = items

/-- An execution that a chain of calls has come to, with the deeds of the last call and the world that it
left. -/
inductive Reached (audience : Audience) (id : String) (items : Schema) :
    Execution → List (Deed World) → World → Prop where
  | started {call w input fuel e w'} (named : call.schema = .str id) (registered : w.Registers id items)
      (ran : Executor.start audience call input fuel w = .ok e w') :
      Reached audience id items e (deeds (call.host audience) fuel .started items [] input
        (w.starting id)) w'
  | continued {e ds w w₁ context listener input fuel e' w'} (before : Reached audience id items e ds w)
      (registered : w₁.Registers id items)
      (ran : Executor.resumeState audience (.str id) (pure ⟨context, e.view.cursors⟩) input listener fuel w₁ =
        .ok e' w') :
      Reached audience id items e' (deeds (Call.host audience ⟨.str id, context, listener⟩) fuel .resumed items
        e.view.cursors input (w₁.resuming id e.view.cursors)) w'

/-- A call that halts does so with its last deed, at the position where that stands. -/
theorem Engine.Proceeds.halted {s : Engine.Scene σ} {level items input position w as ds halt last stepId w'}
    (proceeds : Proceeds s level items input position w as ds (.halted halt last stepId) w') :
    Engine.HaltedBy (Schema.Holds items · last) last ds halt stepId := by
  cases position with
  | nil =>
    have runs : Engine.Runs s [] (.body level items input) w as ds (.halted halt last stepId) w' := proceeds
    exact runs.halted rfl nofun
  | cons next deeper =>
    have resumes : Engine.Resumes s [] (.body level items input) (next :: deeper) w as ds
      (.halted halt last stepId) w' := proceeds
    exact resumes.halted rfl

theorem Engine.Finish.of_execution {call : Call} {f : Finish} {e : Execution} (same : f.execution call = .ok e) :
    e.call = call ∧ f.report = .ok e.report := by
  cases reported : f.report with
  | error fault =>
    rw [Finish.execution, reported] at same
    cases same
  | ok r =>
    rw [Finish.execution, reported] at same
    cases same
    exact ⟨rfl, rfl⟩

theorem Engine.Finish.halted_execution {call : Call} {f : Finish} {e : Execution} {halt : Engine.Halt}
    {cursors : List Int} (same : f.execution call = .ok e) (halted : e.halted? = some (halt, cursors)) :
    ∃ position, cursors = position.cursors ∧ f = .halted halt position e.report.stepId := by
  obtain ⟨-, reported⟩ := Finish.of_execution same
  obtain ⟨call', report⟩ := e
  rcases f with p | ⟨signal, stepId⟩ | ⟨halt', position, stepId⟩ | fault <;> cases reported <;> cases halted
  exact ⟨position, rfl, rfl⟩

namespace Executor
variable {audience : Audience} {call : Call} {w : World}

theorem goOn_eq_resumeState (e : Execution) (input : Value) (fuel : Nat) :
    goOn audience e input fuel w =
      resumeState audience e.call.schema (pure ⟨e.call.context, e.view.cursors⟩) input e.call.listener fuel w :=
  rfl

/-- What a call comes to, unless its fuel is spent, is what its program can do. -/
theorem run_returned {level : Engine.Level} {items : Schema} {position : Position} {input : Value} {fuel : Nat}
    {r : Except Fault Execution} {w' : World} (opens : Engine.Schema.Opens items position)
    (ran : run audience call level items position.cursors input fuel w = answered r w')
    (ends : r ≠ .error (.stopped .exhausted)) :
    ∃ f, Proceeds (call.host audience).scene level items input position w []
        (deeds (call.host audience) fuel level items position.cursors input w) f w' ∧
      f.execution call = r := by
  obtain ⟨w₁, spent⟩ | ⟨f, w₁, proceeds, same⟩ :=
    Engine.run_proceeds (call.host audience) level input w opens fuel
  · have spent : Engine.run (call.host audience) fuel level items position.cursors input w =
      answered (.error (.stopped .exhausted)) w₁ := spent
    obtain ⟨rfl, -⟩ := answered_inj (ran.symm.trans (run_eq spent))
    exact absurd rfl ends
  · have returned : answered r w' = answered (f.execution call) w₁ := ran.symm.trans (run_eq same)
    obtain ⟨rfl, rfl⟩ := answered_inj returned
    exact ⟨f, proceeds, rfl⟩

theorem run_accounted {level : Engine.Level} {items : Schema} {position : Position} {input : Value} {fuel : Nat}
    {e : Execution} {w' : World} (opens : Engine.Schema.Opens items position)
    (ran : run audience call level items position.cursors input fuel w = .ok e w') :
    ∃ f, Proceeds (call.host audience).scene level items input position w []
        (deeds (call.host audience) fuel level items position.cursors input w) f w' ∧
      f.execution call = .ok e := by
  have ran : run audience call level items position.cursors input fuel w = answered (.ok e) w' := ran
  exact run_returned opens ran nofun

theorem resumeState_pure {id : String} {found : RegisteredSchema} {context : Value} {cursors : List Int}
    (registered : w.registry.schema? (.str id) = some found)
    (passes : found.items.checkPosition cursors = .ok ()) (input : Value) (listener : Option Nat) (fuel : Nat) :
    resumeState audience (.str id) (pure ⟨context, cursors⟩) input listener fuel w =
      run audience ⟨.str id, context, listener⟩ .resumed found.items cursors input fuel (w.resuming id cursors) := by
  have read : (pure ⟨context, cursors⟩ : Job State) w = .ok ⟨context, cursors⟩ w := rfl
  exact resumeState_eq registered read passes input listener fuel

/-- Nothing goes on from a position that does not pass the check. -/
theorem resumeState_passes {id : String} {found : RegisteredSchema} {context : Value} {cursors : List Int}
    {input : Value} {listener : Option Nat} {fuel : Nat} {e : Execution} {w' : World}
    (registered : w.registry.schema? (.str id) = some found)
    (ran : resumeState audience (.str id) (pure ⟨context, cursors⟩) input listener fuel w = .ok e w') :
    found.items.checkPosition cursors = .ok () := by
  have opened : resumeAt audience ⟨.str id, context, listener⟩ found.items cursors input fuel w = .ok e w' := by
    rw [← ran]
    simp only [resumeState, Bind.bind, EStateM.bind, schema_registered registered]
    rfl
  cases checked : found.items.checkPosition cursors with
  | ok => rfl
  | error fault =>
    simp only [resumeAt, Bind.bind, EStateM.bind, shown_text, checked] at opened
    cases fault <;> cases opened

end Executor

namespace Reached
variable {audience : Audience} {id : String} {items : Schema} {e : Execution} {ds : List (Deed World)} {w : World}

theorem proceeds (reached : Reached audience id items e ds w) :
    e.call.schema = .str id ∧ ∃ level position input begun f,
      Proceeds (e.call.host audience).scene level items input position begun [] ds f w ∧
        f.execution e.call = .ok e := by
  induction reached with
  | started named registered ran =>
    obtain ⟨found, registered, rfl⟩ := registered
    rw [Executor.start_eq named (by rw [named]; exact registered)] at ran
    have opens : Engine.Schema.Opens found.items [] := .inl rfl
    obtain ⟨f, proceeds, same⟩ := Executor.run_accounted opens ran
    obtain ⟨rfl, -⟩ := Finish.of_execution same
    exact ⟨named, _, [], _, _, f, proceeds, same⟩
  | @continued e ds w w₁ context listener input fuel e' w' before registered ran ih =>
    obtain ⟨found, registered, rfl⟩ := registered
    obtain ⟨-, _, _, _, _, g, last, ends⟩ := ih
    have passes := Executor.resumeState_passes registered ran
    rw [Executor.resumeState_pure registered passes] at ran
    obtain ⟨position, place⟩ : ∃ position : Position, e.view.cursors = position.cursors := by
      cases halted : e.halted? with
      | none => exact ⟨[], by simp [Execution.view, halted]⟩
      | some pair =>
        obtain ⟨position, place, -⟩ := Finish.halted_execution ends halted
        exact ⟨position, by simp [Execution.view, halted, place]⟩
    simp only [place] at passes ran ⊢
    have opens : Engine.Schema.Opens found.items position := .inr ((Schema.checkPosition_iff _ _).mp passes)
    obtain ⟨f, proceeds, same⟩ := Executor.run_accounted opens ran
    obtain ⟨called, -⟩ := Finish.of_execution same
    rw [called]
    exact ⟨rfl, _, position, _, _, f, proceeds, same⟩

/-- An execution that halted did so with the last of its deeds, at the position where that stands. -/
theorem halted (reached : Reached audience id items e ds w) {halt : Engine.Halt} {cursors : List Int}
    (halted : e.halted? = some (halt, cursors)) :
    ∃ position, cursors = position.cursors ∧
      Engine.HaltedBy (Schema.Holds items · position) position ds halt e.report.stepId := by
  obtain ⟨-, _, _, _, _, f, proceeds, same⟩ := reached.proceeds
  obtain ⟨position, place, rfl⟩ := Finish.halted_execution same halted
  exact ⟨position, place, proceeds.halted⟩

end Reached

end Workflow
