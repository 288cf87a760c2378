import Workflow.Call
import Workflow.Engine.Position
import Workflow.Engine.Traversal

/-! Executors: schemas are started, resumed and retried. -/

namespace Workflow
open Script (Value Act)
open Engine (Halt)

/-- How often a loop may repeat its body in one call, unless the caller says otherwise. -/
def loopFuel : Nat := 1000000000

/-- How a halted call can go on. -/
inductive Offer where
  | resume
  | retry
  deriving DecidableEq, Repr

/-- A call that has come to an end or to a halt. -/
structure Execution where
  call : Call
  report : Engine.Report

namespace Execution

/-- The halt of a call, and its position. -/
def halted? (e : Execution) : Option (Halt × List Int) :=
  match e.report.ending with
  | .halted halt cursors => some (halt, cursors)
  | _ => none

def offer? (e : Execution) : Option Offer :=
  e.halted?.map (fun (halt, _) => if isPresent halt.error then .retry else .resume)

def view (e : Execution) : Engine.View :=
  { cursors := (e.halted?.map (·.2)).getD [], stepId := e.report.stepId
    finished := e.halted?.isNone
    signal := match e.report.ending with
      | .signalled s => some s
      | _ => none
    halt := e.halted?.map (·.1) }

def result (e : Execution) : Act Result := e.call.result e.view

end Execution

namespace Executor

def run (audience : Audience) (call : Call) (level : Engine.Level) (items : Schema)
    (position : List Int) (input : Value) (fuel : Nat) : Job Execution := do
  return ⟨call, ← Engine.run (call.host audience) fuel level items position input⟩

/-- Starts a schema on a context. -/
def start (audience : Audience) (call : Call) (input : Value) (fuel : Nat := loopFuel) :
    Job Execution := do
  let found ← schema call.schema
  Job.log .info "stepflow.workflow.executor" s!"Starting workflow '{← Job.shown call.schema}'"
  run audience call .started found.items [] input fuel

def resumeAt (audience : Audience) (call : Call) (items : Schema) (position : List Int)
    (input : Value) (fuel : Nat := loopFuel) : Job Execution := do
  let name ← Job.shown call.schema
  match items.checkPosition position with
  | .error .missing => Job.refuse (.noPosition name)
  | .error (.outOfRange depth) =>
    Job.refuse (.outOfRange name (positionText position) depth)
  | .error (.notBlock depth) => Job.refuse (.notBlock name (positionText position) depth)
  | .error (.beforeStart _) => Job.act (Act.fail .index "list index out of range")
  | .ok () => do
    Job.log .info "stepflow.workflow.executor"
      s!"Resuming workflow '{name}' at position {positionText position}"
    run audience call .resumed items position input fuel

def resumeState (audience : Audience) (id : Value) (state : Job State) (input : Value)
    (listener : Option Nat) (fuel : Nat := loopFuel) : Job Execution := do
  let found ← schema id
  let state ← state
  resumeAt audience { schema := id, context := state.context, listener } found.items state.position
    input fuel

/-- Resumes or retries a schema from a state that a value stands for. -/
def resume (audience : Audience) (id state input : Value) (listener : Option Nat) :
    Job Execution :=
  resumeState audience id (State.ofValue state) input listener

/-- Goes on with a halted call on its own terms. -/
def goOn (audience : Audience) (e : Execution) (input : Value) (fuel : Nat := loopFuel) :
    Job Execution := do
  let found ← schema e.call.schema
  resumeAt audience e.call found.items e.view.cursors input fuel

end Executor

end Workflow
