import Workflow.Registration
import Workflow.State
import Workflow.Trace

/-! Calls: what the engine needs of a world in which a schema runs on a context. -/

namespace Workflow
open Script (Value Act Entries)
open Engine (Halt Outcome)

/-- Supplied input together with the literal input of a step. Of two mappings, the supplied one wins. -/
def mergeInput (literal supplied : Value) : Act Value := do
  match literal, supplied with
  | literal, .nothing => return literal
  | .nothing, supplied => return supplied
  | .ref a, .ref b =>
    match ← Act.object a, ← Act.object b with
    | .dict declared, .dict given => Act.newDict (Entries.insertAll declared given)
    | _, _ => return supplied
  | _, supplied => return supplied

/-- What stays the same during a call. -/
structure Call where
  schema : Value
  context : Value
  /-- A listener for the call alone. -/
  listener : Option Nat := none

namespace Job

/-- A field of an outcome that was not taken away from it. -/
def optionalField (v : Value) (name : String) : Job Value := do
  match v.attribute? (← get).heap name with
  | some found => return found
  | none => return .nothing

def haltOfInput (v : Value) : Job Halt := do
  let descriptor ← act (Act.getAttribute v "descriptor")
  let expires ← optionalField v "expires"
  let errors ← optionalField v "errors"
  return { descriptor, expires, errors }

/-- The halt that a failure makes which can be retried. -/
def haltOfFailure (v : Value) : Job Halt := do
  let error ← act (Act.getAttribute v "original_error")
  let errors ← act (Act.getAttribute v "errors")
  let descriptor ← act (Act.getAttribute v "input_required")
  let expires ← act (Act.getAttribute v "expires")
  return { error, errors, descriptor, expires }

/-- Whether a value reports a failure that can be retried. -/
def isRetriable (w : World) (v : Value) : Bool :=
  match v.classOf w.heap with
  | .error c => c.isA .retriable
  | _ => false

/-- Runs a job, and gives the failure that it raised if that can be retried. -/
def orRetriable (job : Job α) : Job (Except Value α) := fun w =>
  match job w with
  | .ok a w => .ok (.ok a) w
  | .error (.stopped (.raised v)) w =>
    if isRetriable w v then .ok (.error v) w else .error (.stopped (.raised v)) w
  | .error fault w => .error fault w

def outcomeOf (report : Value) : Job Outcome := do
  match report.classOf (← get).heap with
  | .kind .inputRequired => return .awaits (← haltOfInput report)
  | .error _ => return .failed (← haltOfFailure report)
  | _ => return .done

end Job

namespace Step

/-- Whether a value reports that a step is not done. -/
def isReport (w : World) (v : Value) : Bool :=
  match v.classOf w.heap with
  | .kind .inputRequired => true
  | .error c => c.isA .retriable
  | _ => false

/-- What a step reports on a context and an input; nothing when it is done. A step that declares an
input and gets none asks for it. -/
def handle (s : Step) (context input : Value) : Job Value := do
  if s.requiresInput && !isPresent input then
    Job.log .debug "stepflow.exec.step" s!"Step '{s.id}' requires input"
    Job.act (Script.makeInputRequired ⟨[s.input], []⟩)
  else
    let value ← match s.handler with
      | .source text => do Job.evaluate (← Job.compile text) (s.bindings context input)
      | .call f => Job.act (Script.callValue f [context, input])
    let value ← Job.act (Script.awaited value)
    return if isReport (← get) value then value else .nothing

end Step

namespace Call

def decide (call : Call) (c : Condition) : Job Bool := do
  let value ← match c with
    | .source text => do
      let program ← Job.compile text
      Job.evaluate program (← Job.act (Script.contextBindings call.context))
    | .call f => Job.act (Script.callValue f [call.context])
  let value ← Job.act (Script.awaited value)
  Job.act (Act.truth value)

def check (call : Call) (c : Condition) : Job (Except Halt Bool) := do
  match ← Job.orRetriable (call.decide c) with
  | .ok passed => return .ok passed
  | .error failure => return .error (← Job.haltOfFailure failure)

def invoke (call : Call) (id : String) (literal supplied : Value) (cursors : List Int) :
    Job Outcome := do
  let step ← Executor.step id
  let input ← Job.act (mergeInput literal supplied)
  Job.log .debug "stepflow.workflow.executor" s!"Running step '{id}' at {positionText cursors}"
  match ← Job.orRetriable (step.handle call.context input) with
  | .ok value => Job.outcomeOf value
  | .error failure => return .failed (← Job.haltOfFailure failure)

/-- The result under way. -/
def result (call : Call) (v : Engine.View) : Act Result := do
  let indexes ← Act.newList (v.cursors.map Value.int).toArray
  let halt := v.halt.getD {}
  return { schema := call.schema, context := call.context, indexes, finished := .bool v.finished
           stepId := .str v.stepId, inputRequired := halt.descriptor
           interrupt := .bool v.halt.isSome
           loopSignal := (v.signal.map (fun s => Value.str s.name)).getD .nothing
           error := halt.error, errors := halt.errors, expires := halt.expires }

/-- What an event is about. -/
def payload (call : Call) : Engine.Event → Act Value
  | .step id => return .str id
  | .checked _ c passed =>
    Act.newDict #[(.str "fn", c.value), (.str "result", .bool passed)]
  | _ => return call.schema

/-- The log of how the outermost row ends. -/
def logEnd (call : Call) (event : Engine.Event) (v : Engine.View) : Job Unit := do
  let info (message : String) : Job Unit := Job.log .info "stepflow.workflow.executor" message
  match event, v.halt with
  | .interrupted .nested, _ => return ()
  | .interrupted _, some halt => do
    let schema ← Job.shown call.schema
    if isPresent halt.error then
      let error ← Job.shown halt.error
      info s!"Workflow '{schema}' halted on step '{v.stepId}' with retriable error: {error}"
    else info s!"Workflow '{schema}' awaiting input for step '{v.stepId}'"
  | .ended .nested, _ => return ()
  | .ended _, _ => do info s!"Workflow '{← Job.shown call.schema}' finished"
  | _, _ => return ()

def emit (audience : Audience) (call : Call) (event : Engine.Event) (v : Engine.View) :
    Job Unit := do
  call.logEnd event v
  let result ← Job.act (call.result v)
  let payload ← Job.act (call.payload event)
  Trace.deliver audience call.listener
    { event := event.name, payload, result := some result
      time := if event.isTimed then .float 0.0 else .nothing }

def host (audience : Audience) (call : Call) : Engine.Host World where
  check _ c _ := call.check c
  invoke := call.invoke
  emit := call.emit audience

end Call

end Workflow
