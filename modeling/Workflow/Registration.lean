import Workflow.Schema.Normal
import Workflow.Schema.Walk
import Workflow.World

/-! Registration: steps and schemas are checked when they are registered, and a failing registration
leaves what is registered as it was. -/

namespace Workflow
open Script (Value Act Entries)

namespace Step

/-- A step of given parts. -/
def make (id handler input globals : Value) : Job Step := do
  let id ← match id with
    | .str id => if id.isEmpty then Job.refuse (.stepId (Text.quote id)) else pure id
    | id => do Job.refuse (.stepId (← Job.act (Act.quoted id)))
  let handler ← match handler with
    | .str text => pure (Handler.source text)
    | f => if f.isCallable (← get).heap then pure (Handler.call f) else Job.refuse (.handler id)
  let globals ← if globals.truth (← get).heap then
      Job.act (Act.entriesOf Script.interpreter globals)
    else pure #[]
  return { id, handler, input, globals := Entries.insertAll #[] globals }

end Step

namespace Cause

/-- The written form of some keys in their order. -/
def sortedText (keys : List Value) : Act String := do
  Act.quoted (← Act.newList (← Script.sortValues Script.interpreter .nothing false keys))

/-- What is wrong, in words. -/
def explain : Cause → Act String
  | .notRow v => do return s!"expected a list of items, got {v.className (← get)}"
  | .notItem v => do return s!"unsupported item type {v.className (← get)}"
  | .stepId v => do return s!"step id must be a non-empty string, got {← Act.quoted v}"
  | .noCondition => return "condition is required"
  | .emptyCondition => return "condition cannot be empty"
  | .notCondition v => do
    return s!"condition must be a string or callable, got {v.className (← get)}"
  | .unknownMarker kind => do return s!"unknown control marker '{← Act.plain kind}'"
  | .outsideLoop signal => return s!"'{signal.name}' is only allowed inside a loop"
  | .mixedMarker signal others => do
    return s!"'{signal.name}' cannot be combined with {← sortedText others}"
  | .stepFields unknown => do return s!"unknown step fields {← sortedText unknown}"
  | .blockFields unknown => do return s!"unknown block fields {← sortedText unknown}"
  | .shapeless => return "item requires 'id', 'steps', 'break' or 'continue'"

end Cause

/-- The namespace that a value stands for. -/
def spaceOf (v : Value) : Job (Option String) := do
  if v.truth (← get).heap then return some (← Job.shown v) else return none

def normalise (id items space : Value) : Job Schema := do
  let space ← spaceOf space
  match Draft.ofValue? (← get).heap Script.depthLimit items with
  | none => Job.act (Act.fail .recursion "maximum recursion depth exceeded")
  | some draft =>
    match draft.schema space with
    | .ok schema => return schema
    | .error defect => do
      let reason ← Job.act defect.cause.explain
      Job.fail (.invalidSchema id defect.path reason)

namespace Executor

/-- Registers a step under its id, which has to be new. -/
def addStep (s : Step) : Job Unit := do
  let w ← get
  if (w.registry.step? s.id).isSome then Job.fail (.duplicateStep s.id)
  set { w with registry := { w.registry with steps := w.registry.steps ++ [s] } }
  Job.log .debug "stepflow.workflow.registry" s!"Registered step: {s.id}"

/-- Makes a step of given parts and registers it. -/
def addNewStep (id handler input : Value) : Job Step := do
  if !isPresent handler then Job.refuse (.noHandler (← Job.shown id))
  let s ← Step.make id handler input .nothing
  addStep s
  return s

/-- Refuses a schema that refers to a step that is not registered. -/
def checkSteps (schema : Value) : List (Path × String) → Job Unit
  | [] => return ()
  | (_, id) :: rest => do
    if ((← get).registry.step? id).isNone then Job.fail (.unknownStep id (some schema))
    checkSteps schema rest

/-- Refuses a schema with a condition that does not compile. -/
def checkConditions (schema : Value) : List (Path × Condition) → Job Unit
  | [] => return ()
  | (path, .source text) :: rest => do
    match ← Job.attempt (Job.compile text) with
    | .ok _ => pure ()
    | .error (.refusedSource _ refusal) =>
      Job.fail (.invalidSchema schema path refusal.reason)
    | .error fault => Job.fail fault
    checkConditions schema rest
  | (_, .call _) :: rest => checkConditions schema rest

/-- Registers a schema under an id, which has to be new. -/
def register (id items space : Value) : Job Unit := do
  Job.act (Act.checkKey id)
  if ((← get).registry.schema? id).isSome then Job.fail (.duplicateSchema id)
  let schema ← normalise id items space
  checkSteps id schema.stepIds
  checkConditions id schema.conditions
  modify (fun w => { w with registry :=
    { w.registry with schemas := w.registry.schemas ++ [{ id, items := schema, space }] } })
  let note ← match ← spaceOf space with
    | none => pure ""
    | some space => pure s!" (prefix '{space}')"
  Job.log .debug "stepflow.workflow.registry"
    s!"Registered workflow schema: {← Job.shown id}{note}"

def schema (id : Value) : Job RegisteredSchema := do
  Job.act (Act.checkKey id)
  match (← get).registry.schema? id with
  | some s => return s
  | none => Job.fail (.unknownSchema id)

def step (id : String) : Job Step := do
  match (← get).registry.step? id with
  | some s => return s
  | none => Job.fail (.unknownStep id none)

end Executor

end Workflow
