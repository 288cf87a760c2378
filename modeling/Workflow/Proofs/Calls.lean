import Workflow.Executor
import Workflow.Proofs.Account
import Workflow.Proofs.Heaps

/-! Calls of an executor are calls of the engine. One that starts runs the program of its schema, and one
that goes on from a position does what is left of it there. -/

namespace Workflow.Engine
open Script (Value)

/-- What a call does on a schema: all of it, or what is left of it at a position. -/
def Proceeds (s : Scene σ) (level : Level) (schema : Schema) (input : Value) :
    Position → σ → List Value → List (Deed σ) → Finish → σ → Prop
  | [] => Runs s [] (.body level schema input)
  | next :: deeper => Resumes s [] (.body level schema input) (next :: deeper)

/-- A call can begin at its start and at every position that the schema admits. -/
def Schema.Opens (schema : Schema) (position : Position) : Prop := position = [] ∨ schema.Admits position

section
variable {σ : Type} {host : Host σ} {level : Level} {schema : Schema} {position : Position} {input : Value}
  {w : σ}

theorem run_of_recorded {fuel : Nat} {ds : List (Deed σ)} {r : Except Fault Report} {w' : σ}
    (recorded : run host.recorded fuel level schema position.cursors input (w, []) = answered r (w', ds)) :
    run host fuel level schema position.cursors input w = answered r w' ∧
      deeds host fuel level schema position.cursors input w = ds := by
  obtain ⟨a, v, plain, noting⟩ := run_recorded host fuel level schema position.cursors input w
  obtain ⟨rfl, same⟩ := answered_inj (noting.symm.trans recorded)
  cases same
  exact ⟨plain, rfl⟩

/-- What a call can do, its traversal does with enough fuel. -/
theorem Proceeds.traversed {ds : List (Deed σ)} {f : Finish} {w' : σ}
    (proceeds : Proceeds host.scene level schema input position w [] ds f w') :
    ∃ n, ∀ fuel, n ≤ fuel → run host fuel level schema position.cursors input w = answered f.report w' ∧
      deeds host fuel level schema position.cursors input w = ds := by
  cases position with
  | nil =>
    obtain ⟨n, performed⟩ := Runs.performed proceeds rfl
    exact ⟨n, fun fuel enough => run_of_recorded (performed fuel fuel enough enough [])⟩
  | cons next deeper =>
    obtain ⟨n, performed⟩ := Resumes.performed proceeds rfl
    exact ⟨n, fun fuel enough => run_of_recorded (performed fuel enough [])⟩

variable (host level input w) in
/-- Whatever a traversal does, unless its fuel is spent, is what the call can do. -/
theorem run_proceeds (opens : Schema.Opens schema position) (fuel : Nat) :
    Spent (run host fuel level schema position.cursors input w) ∨ ∃ f w',
      Proceeds host.scene level schema input position w []
        (deeds host fuel level schema position.cursors input w) f w' ∧
      run host fuel level schema position.cursors input w = answered f.report w' := by
  have accounted : Accounted (run host.recorded fuel level schema position.cursors input) w [] (fun ds r w' =>
      ∃ f, Proceeds host.scene level schema input position w [] ds f w' ∧ r = f.report) := by
    cases position with
    | nil =>
      have whole : Accounted (runBody host.recorded fuel level (Position.cursors []) schema [] input) w []
          (Reported host [] (.body level schema input) w) :=
        body_accounted (fun p v l => runItems_accounted fuel [] 0 p v l schema) w []
      exact whole
    | cons next deeper =>
      obtain missing | admits := opens
      · cases missing
      · exact schema_rejoined admits fuel level input w []
  obtain ⟨⟨v, log⟩, spent⟩ | ⟨ds, _, w', ⟨f, proceeds, rfl⟩, same⟩ := accounted
  · have spent : run host.recorded fuel level schema position.cursors input (w, []) =
      answered (.error (.stopped .exhausted)) (v, log) := spent
    exact .inl ⟨v, (run_of_recorded spent).1⟩
  · rw [List.nil_append] at same
    obtain ⟨plain, rfl⟩ := run_of_recorded same
    exact .inr ⟨f, w', proceeds, plain⟩

end

end Workflow.Engine

namespace Workflow
open Script (Value)
open Engine (Position Finish Halt)

/-- The world once an executor has logged a message. -/
def World.noting (w : World) (message : String) : World :=
  { w with journal :=
    w.journal.push (.logged { logger := "stepflow.workflow.executor", level := .info, message }) }

/-- The world in which a start of a schema begins. -/
def World.starting (w : World) (id : String) : World := w.noting s!"Starting workflow '{id}'"

/-- The world in which a schema is gone on with at a position. -/
def World.resuming (w : World) (id : String) (cursors : List Int) : World :=
  w.noting s!"Resuming workflow '{id}' at position {positionText cursors}"

/-- What a call returns, or what it fails with. -/
def Engine.Finish.execution (call : Call) (f : Finish) : Except Fault Execution :=
  f.report.map (Execution.mk call)

namespace Executor
variable {audience : Audience} {call : Call} {id : String} {w : World} {found : RegisteredSchema}

theorem shown_text (id : String) (w : World) : Job.shown (.str id) w = .ok id w := rfl

theorem schema_registered (registered : w.registry.schema? (.str id) = some found) :
    schema (.str id) w = .ok found w := by
  have key : Job.act (Script.Act.checkKey (.str id)) w = .ok () w := rfl
  simp only [schema, Bind.bind, EStateM.bind, key, Script.get_result, registered]
  rfl

theorem run_eq {level items position input fuel} {r : Except Fault Engine.Report} {w' : World}
    (ran : Engine.run (call.host audience) fuel level items position input w = Engine.answered r w') :
    run audience call level items position input fuel w =
      Engine.answered (r.map (Execution.mk call)) w' := by
  simp only [run, Bind.bind, EStateM.bind, ran]
  cases r <;> rfl

theorem start_eq (named : call.schema = .str id) (registered : w.registry.schema? call.schema = some found)
    (input : Value) (fuel : Nat) :
    start audience call input fuel w =
      run audience call .started found.items [] input fuel (w.starting id) := by
  rw [named] at registered
  simp only [start, Bind.bind, EStateM.bind, named, schema_registered registered, shown_text]
  rfl

theorem resumeAt_eq (named : call.schema = .str id) {items : Schema} {position : List Int}
    (passes : items.checkPosition position = .ok ()) (input : Value) (fuel : Nat) :
    resumeAt audience call items position input fuel w =
      run audience call .resumed items position input fuel (w.resuming id position) := by
  simp only [resumeAt, Bind.bind, EStateM.bind, named, shown_text, passes]
  rfl

theorem goOn_eq {e : Execution} (named : e.call.schema = .str id)
    (registered : w.registry.schema? e.call.schema = some found)
    (passes : found.items.checkPosition e.view.cursors = .ok ()) (input : Value) (fuel : Nat) :
    goOn audience e input fuel w =
      run audience e.call .resumed found.items e.view.cursors input fuel (w.resuming id e.view.cursors) := by
  rw [← resumeAt_eq named passes]
  rw [named] at registered
  simp only [goOn, Bind.bind, EStateM.bind, named, schema_registered registered]

theorem resumeState_eq {state : State} {w' : World} {job : Job State}
    (registered : w.registry.schema? (.str id) = some found) (read : job w = .ok state w')
    (passes : found.items.checkPosition state.position = .ok ()) (input : Value) (listener : Option Nat)
    (fuel : Nat) :
    resumeState audience (.str id) job input listener fuel w =
      run audience { schema := .str id, context := state.context, listener } .resumed found.items
        state.position input fuel (w'.resuming id state.position) := by
  rw [← resumeAt_eq rfl passes]
  simp only [resumeState, Bind.bind, EStateM.bind, schema_registered registered, read]

end Executor

end Workflow
