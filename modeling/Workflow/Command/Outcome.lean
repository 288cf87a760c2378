import Workflow.Command.Invocation
import Workflow.Document
import Workflow.Executor

/-! What a command does: the files that it changes, what it prints and how it exits. -/

namespace Workflow.Command
open Script (Value Act Entries)

inductive ExitCode where
  | finished
  | failed
  | refused
  | awaiting
  | retriable
  deriving DecidableEq, Repr

def ExitCode.toNat : ExitCode → Nat
  | .finished => 0
  | .failed => 1
  | .refused => 2
  | .awaiting => 3
  | .retriable => 4

inductive Outcome where
  /-- The usage is shown. -/
  | usage (code : ExitCode)
  | exit (code : ExitCode)
  /-- A fault that no command takes care of. -/
  | fault (f : Fault)

def runLogger : String := "stepflow.cli.commands.run"

def resumeLogger : String := "stepflow.cli.commands.resume"

def print (line : String) : Job Unit := Job.write (.printed line)

def complain (line : String) : Job Unit := Job.write (.complained line)

/-! What is given. -/

def loadWorkflow (file : String) : Job Unit := do
  let files := (← get).files
  let path := (FilePath.ofText file).resolve files.home
  if !files.exists? path then Job.fail (.missing .workflow path.text)
  Job.log .info runLogger s!"Loading workflow: {path.text}"
  Document.build (← Document.ofFile path)

/-- The value of a JSON text. A text that is none stands for itself. -/
def valueOf (text : String) : Job Value := do
  match Json.read text with
  | .ok j => Job.act (Script.ofJson j)
  | .error .malformed => return .str text
  | .error (.longNumber digits) => Job.act (Act.valueError (Number.unreadable digits))

def inputOf : Option String → Job Value
  | none => return .nothing
  | some text => valueOf text

/-- The entries of a file that holds a JSON object. -/
def fileEntries (file : String) : Job Entries := do
  let path := FilePath.ofText file
  if !(← get).files.exists? path then Job.fail (.missing .context path.text)
  let v ← Store.parse (← Store.read path) .notData
  match ← Document.entries? v with
  | some entries => return entries
  | none => Job.refuse (.notContext (v.className (← get).heap))

/-- Adds assignments of values to names. -/
def assign (found : Entries) : List String → Job Entries
  | [] => return found
  | item :: rest => do
    match splitValue item with
    | (_, none) => Job.refuse (.notAssignment item)
    | (name, some text) => do
      assign (Entries.insert found (.str name) (← valueOf text)) rest

/-- The context of a run: what a file holds, and assignments that take precedence. -/
def contextOf (file : Option String) (assignments : List String) : Job Value := do
  let found ← match file with
    | some file => if file.isEmpty then pure #[] else fileEntries file
    | none => pure #[]
  Job.act (Act.newDict (← assign found assignments))

/-! What comes out. -/

/-- A value as a JSON text, in which whatever is no plain data stands as its text. -/
def jsonText (write : Json → String) (v : Value) : Job String := do
  match v.dataWithTexts (← get).heap with
  | .ok j => return write j
  | .error fault => Job.act fault.stop

/-- Keeps the state of a halted call and tells how to go on. Of a finished one it shows the context. -/
def conclude (path : FilePath) (e : Execution) : Job ExitCode := do
  let r ← Job.act e.result
  if e.halted?.isNone then
    Store.clear path
    print (← jsonText Json.pretty r.context)
    return .finished
  let _ ← Store.save path r
  let step ← Job.shown r.stepId
  let saved := s!"State saved to {path.text}; run "
  if isPresent r.error then
    complain s!"Step '{step}' failed: {← Job.shown r.error}"
    complain (saved ++ "'stepflow resume' to retry.")
    return .retriable
  else
    print s!"Step '{step}' requires input: {← jsonText Json.compact r.inputRequired}"
    print (saved ++ "'stepflow resume --input JSON' to continue.")
    return .awaiting

/-- The listeners of commands: they log what they hear. -/
def audience : Audience := fun _ n w => Trace.logging n w

def listen (i : Invocation) : Job Unit := do
  if i.isDebugging then modify (Trace.attach 0)

/-! Commands. -/

def validate (i : Invocation) : Job ExitCode := do
  loadWorkflow i.workflow
  (← get).registry.schemas.forM (fun s => do print (← Job.shown s.id))
  return .finished

def run (i : Invocation) (schema : String) (assignments : List String) (file : Option String) :
    Job ExitCode := do
  loadWorkflow i.workflow
  listen i
  let context ← contextOf file assignments
  let input ← inputOf i.input
  conclude (FilePath.ofText i.stateFile)
    (← Executor.start audience { schema := .str schema, context, listener := none } input)

/-- Goes on with a halted run from its snapshot. -/
def resume (i : Invocation) (snapshot : Entries) : Job ExitCode := do
  loadWorkflow i.workflow
  listen i
  let schema := Document.valueOf snapshot "schema_id"
  let state ← State.ofData (Document.valueOf snapshot "state")
  let input ← inputOf i.input
  let verb := if (Entries.named? snapshot "error").isSome then "Retrying" else "Resuming"
  let step ← Job.shown (Document.valueOf snapshot "step_id")
  Job.log .info resumeLogger s!"{verb} step '{step}' of '{← Job.shown schema}'"
  conclude (FilePath.ofText i.stateFile)
    (← Executor.resumeState audience schema (pure state) input none)

/-! Failures. -/

def isMissing (h : Script.Heap) : Fault → Bool
  | .missing _ _ => true
  | .system .fileNotFound => true
  | f => (f.raisedClass? h).any (·.isA .fileNotFound)

/-- Whether a fault ends a command whatever it does. -/
def isFatal (h : Script.Heap) (f : Fault) : Bool := (f.raisedClass? h).any (fun c => !c.isA .exception)

def reject (logger : String) (problems : List Problem) : Job ExitCode := do
  problems.forM (fun p => Job.log .error logger s!"Validation error: {p.text}")
  return .refused

/-- The text of a fault in a report, which that of a raised value may not have. -/
def told (f : Fault) : Job String := do
  match f with
  | .stopped (.raised v) => Job.shown v
  | f => return f.message (← get).heap

/-- Reports a fault of a run. `refusal` starts the report of one that lies in a value. -/
def settle (logger refusal : String) (f : Fault) : Job ExitCode := do
  let h := (← get).heap
  match f with
  | .invalidDocument problems => reject logger problems
  | .unknownSchema _ => do
    Job.log .error logger (← told f)
    return .failed
  | f =>
    if isMissing h f then
      Job.log .error logger (← told f)
      return .failed
    else if f.isValue h then
      Job.log .error logger s!"{refusal}: {← told f}"
      return .refused
    else if isFatal h f then Job.fail f
    else
      let message := s!"Unexpected error: {← told f}"
      Job.write (.logged { logger, level := .error, message, fault := some f })
      return .failed

/-- Reports a fault of a validation, if it lies in the document or in its file. -/
def settleValidation (f : Fault) : Job ExitCode := do
  let h := (← get).heap
  match f with
  | .invalidDocument problems => reject runLogger problems
  | f =>
    if isMissing h f then
      Job.log .error runLogger s!"File not found: {← told f}"
      return .failed
    else Job.fail f

/-- Reports a fault in a stored state. -/
def settleState (f : Fault) : Job ExitCode := do
  let h := (← get).heap
  if isMissing h f || f.isValue h then
    Job.log .error resumeLogger s!"Failed to load state: {← told f}"
    return .failed
  else Job.fail f

def withSettled (settle : Fault → Job ExitCode) (j : Job ExitCode) : Job ExitCode := do
  match ← Job.attempt j with
  | .ok code => return code
  | .error f => settle f

def perform (i : Invocation) : Job ExitCode := do
  match i.request with
  | .validate => withSettled settleValidation (validate i)
  | .run schema assignments file =>
    withSettled (settle runLogger "Validation error") (run i schema assignments file)
  | .resume => do
    match ← Job.attempt (Store.load (FilePath.ofText i.stateFile)) with
    | .ok snapshot => withSettled (settle resumeLogger "Invalid state") (resume i snapshot)
    | .error f => settleState f

/-- Whether an entry of the journal is shown where records start at a level. -/
def isShown (level : LogLevel) : JournalEntry → Bool
  | .logged r => level.rank ≤ r.level.rank
  | _ => true

/-- Executes a command by its arguments, in a world that holds nothing but files. -/
def execute (args : List String) (files : FileTree) : Outcome × World :=
  match Invocation.ofArguments? false args with
  | .error .help => (.usage .finished, { files })
  | .error .misuse => (.usage .refused, { files })
  | .ok none => (.usage .failed, { files })
  | .ok (some i) =>
    let shown (w : World) : World := { w with journal := w.journal.filter (isShown i.level) }
    match perform i { files } with
    | .ok code w => (.exit code, shown w)
    | .error f w => (.fault f, shown w)

end Workflow.Command
