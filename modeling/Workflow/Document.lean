import Workflow.Registration
import Workflow.Store
import Workflow.Script.Index
import Workflow.Yaml.Value

/-! Documents that declare steps and the schemas that use them. All problems of a document are reported
together. -/

namespace Workflow
open Script (Value Act Entries)

namespace Document

def versions : List String := ["1.0"]

def fields : List String := ["version", "name", "steps", "schemas"]

def stepFields : List String := ["handler", "input", "globals"]

def schemaFields : List String := ["steps", "prefix"]

def isNamed (names : List String) : Value → Bool
  | .str s => names.contains s
  | _ => false

def entries? (v : Value) : Job (Option Entries) := do return v.entries? (← get).heap

def isList (v : Value) : Job Bool := do return (v.listItems? (← get).heap).isSome

/-- The value under a name, or nothing. -/
def valueOf (entries : Entries) (name : String) : Value :=
  (Entries.named? entries name).getD .nothing

def isTrue (v : Value) : Job Bool := do return v.truth (← get).heap

/-- A new mapping with one entry. -/
def single (name : String) (v : Value) : Job Value := Job.act (Act.newDict #[(.str name, v)])

/-- Fails if there are problems. -/
def conclude : Job Unit := do
  let found := (← get).problems
  if !found.isEmpty then Job.fail (.invalidDocument found)

/-! Parts of a document. -/

def checkVersion (version : Value) : Job Unit := do
  if !(← isTrue version) then Job.report "'version' field is required"
  else
    match version with
    | .str s =>
      if !versions.contains s then
        Job.report s!"Unsupported version '{s}'. Supported: ['1.0']"
    | v => Job.report s!"'version' field must be a string, got {v.className (← get).heap}"

/-- Reports the keys that are no names of fields. -/
def checkFields (names : List String) (text path : String) : List (Value × Value) → Job Unit
  | [] => return ()
  | (key, _) :: rest => do
    if !isNamed names key then Job.report s!"{text} '{← Job.shown key}'" path
    checkFields names text path rest

def checkHandler (path : String) (handler : Value) : Job Unit := do
  match handler with
  | .str source =>
    if (Text.strip source).isEmpty then refuse
    else
      match ← Job.attempt (Job.compile source) with
      | .ok _ => return ()
      | .error (.refusedSource _ refusal) => Job.report s!"invalid handler: {refusal.reason}" path
      | .error fault => Job.fail fault
  | _ => refuse
where
  refuse : Job Unit := Job.report "'handler' must be a non-empty expression string" path

/-- The definition of a step. One that is only a handler is written out in its document. -/
def definition (steps : Script.Addr) (id config : Value) : Job Value := do
  match config with
  | .str _ => do
    let config ← single "handler" config
    Job.act do
      match ← Act.object steps with
      | .dict entries => Act.write steps (.dict (Entries.insert entries id config))
      | _ => return ()
    return config
  | config => return config

def checkStep (steps : Script.Addr) (id config : Value) : Job Unit := do
  let path := s!"steps.{← Job.shown id}"
  match id with
  | .str "" => Job.report "Step id must be a non-empty string, got ''"
  | .str _ => do
    match ← entries? (← definition steps id config) with
    | none => Job.report "step definition must be a dictionary or handler string" path
    | some config => do
      checkFields stepFields "unknown field" path config.toList
      checkHandler path (valueOf config "handler")
      match Entries.named? config "globals" with
      | none => return ()
      | some globals =>
        if (← entries? globals).isNone then Job.report "'globals' must be a dictionary" path
  | id => Job.report s!"Step id must be a non-empty string, got {← Job.act (Act.quoted id)}"

def checkSteps (steps : Value) : Job Unit := do
  match steps, ← entries? steps with
  | .ref a, some entries => entries.toList.forM (fun (id, config) => checkStep a id config)
  | _, _ => Job.report "'steps' must be a mapping of step id to definition"

/-- Whether a value can stand in front of the ids of steps. -/
def isSpace : Value → Bool
  | .nothing => true
  | .str s => !s.isEmpty && !s.contains '/'
  | _ => false

def checkSchema (id config : Value) : Job Unit := do
  let path := s!"schemas.{← Job.shown id}"
  if ← isList config then return ()
  match ← entries? config with
  | none => Job.report "schema must be a list of items or a dictionary" path
  | some config => do
    checkFields schemaFields "unknown field" path config.toList
    if !(← isList (valueOf config "steps")) then Job.report "'steps' must be a list" path
    if !isSpace (valueOf config "prefix") then
      Job.report "'prefix' must be a non-empty string without '/'" path

def checkSchemas (schemas : Value) : Job Unit := do
  match ← entries? schemas with
  | some entries => entries.toList.forM (fun (id, config) => checkSchema id config)
  | none => Job.report "'schemas' must be a mapping of schema id to definition"

/-- A section that has to be there. -/
def checkSection (name : String) (check : Value → Job Unit) (v : Value) : Job Unit := do
  if ← isTrue v then check v
  else Job.report s!"'{name}' field is required and must not be empty"

/-- A value under a name that may be missing. -/
def optionalPart (v : Value) (name : String) : Job Value := do
  return ((← entries? v).bind (Entries.named? · name)).getD .nothing

/-- Refuses a document with all its problems, and with those that were known before. The schemas are looked up when the steps
have been written out, as the document may itself be the mapping of its steps. -/
def validate (document : Value) : Job Unit := do
  match ← entries? document with
  | none => do
    Job.report "Workflow must be a YAML object/dictionary"
    conclude
  | some entries => do
    checkVersion (valueOf entries "version")
    checkFields fields "Unknown field" "" entries.toList
    checkSection "steps" checkSteps (valueOf entries "steps")
    checkSection "schemas" checkSchemas (← optionalPart document "schemas")
    conclude

/-! Documents from texts. -/

def forgetProblems : Job Unit := modify (fun w => { w with problems := [] })

/-- The document of a text, which has to be valid. -/
def parsed (failure text : String) : Job Value := do
  match ← Job.act (Yaml.valueOf text) with
  | .error _ => do
    Job.report failure
    conclude
    return .nothing
  | .ok document => do
    validate document
    return document

def ofText (text : String) : Job Value := do
  forgetProblems
  parsed "Failed to parse workflow" text

def ofFile (path : FilePath) : Job Value := do
  forgetProblems
  let failure := "Failed to load workflow"
  match (← get).files.read path with
  | .ok text => parsed failure text
  | .error _ => do
    Job.report failure
    conclude
    return .nothing

/-! Executors from documents. -/

def part (v : Value) (name : String) : Job Value := Job.act (Act.subscript v (.str name))

def sectionEntries (document : Value) (name : String) : Job Entries := do
  let v ← part document name
  match ← entries? v with
  | some entries => return entries
  | none =>
    Job.act (Act.fail .attribute s!"'{v.typeName (← get).heap}' object has no attribute 'items'")

def buildStep (id config : Value) : Job Unit := do
  let config ← match config with
    | .str _ => single "handler" config
    | config => pure config
  let handler ← part config "handler"
  let input ← optionalPart config "input"
  let globals ← optionalPart config "globals"
  Executor.addStep (← Step.make id handler input globals)

def registerSchema (id config : Value) : Job Unit := do
  let config ← if ← isList config then single "steps" config else pure config
  let items ← part config "steps"
  Executor.register id items (← optionalPart config "prefix")

/-- Registers a schema; what is wrong with its setup becomes a problem of the document. -/
def buildSchema (id config : Value) : Job Unit := do
  match ← Job.attempt (registerSchema id config) with
  | .ok _ => return ()
  | .error fault =>
    if fault.isConfiguration then
      Job.report (fault.message (← get).heap) s!"schemas.{← Job.shown id}"
    else Job.fail fault

def registerAll (document : Value) : Job Unit := do
  forgetProblems
  let steps ← sectionEntries document "steps"
  steps.toList.forM (fun (id, config) => buildStep id config)
  let schemas ← sectionEntries document "schemas"
  schemas.toList.forM (fun (id, config) => buildSchema id config)
  conclude

/-- Registers the steps and schemas of a document in place of those that were known, with no listener
attached. A failing build leaves what was registered as it was. -/
def build (document : Value) : Job Unit := do
  let before ← get
  set { before with registry := {}, listeners := [] }
  match ← Job.attempt (registerAll document) with
  | .ok _ => return ()
  | .error fault => do
    modify (fun w => { w with registry := before.registry, listeners := before.listeners })
    Job.fail fault

end Document

end Workflow
