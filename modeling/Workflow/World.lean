import Workflow.Engine.Host
import Workflow.Files.Tree
import Workflow.Log
import Workflow.Result
import Workflow.Step

/-! The world of an executor: the values of its scripts, the steps and schemas that it knows, the
listeners attached to it, and a journal of what was logged and heard. -/

namespace Workflow
open Script (Value Act Entries Heap Stop Evaluator)

structure RegisteredSchema where
  id : Value
  items : Schema
  space : Value

structure Registry where
  steps : List Step := []
  schemas : List RegisteredSchema := []

namespace Registry

def step? (r : Registry) (id : String) : Option Step := r.steps.find? (·.id == id)

def schema? (r : Registry) (id : Value) : Option RegisteredSchema :=
  r.schemas.find? (fun s => s.id.sameKey id)

end Registry

/-- What a listener hears. -/
structure Notice where
  event : String
  payload : Value
  result : Option Result
  /-- How many milliseconds something took, if it was timed. -/
  time : Value := .nothing

/-- What happened, as far as it is seen from outside. -/
inductive JournalEntry where
  | logged (r : LogRecord)
  | heard (listener : String) (n : Notice)
  | printed (line : String)
  | complained (line : String)

structure World where
  heap : Heap := {}
  evaluator : Evaluator := {}
  registry : Registry := {}
  /-- Attached listeners, each known by a number. -/
  listeners : List Nat := []
  files : FileTree := {}
  /-- What is wrong with the document that is looked at. -/
  problems : List Problem := []
  journal : Array JournalEntry := #[]

abbrev Job := Engine.Work World

namespace Job

/-- An act on the values of scripts. -/
def act (a : Act α) : Job α := fun w =>
  match a w.heap with
  | .ok v h => .ok v { w with heap := h }
  | .error stop h => .error (.stopped stop) { w with heap := h }

def fail (fault : Fault) : Job α := throw fault

/-- Runs a job and gives back what it failed with, if it failed. -/
def attempt (j : Job α) : Job (Except Fault α) := fun w =>
  match j w with
  | .ok v w => .ok (.ok v) w
  | .error fault w => .ok (.error fault) w

def refuse (cause : Invalid) : Job α := throw (.invalid cause)

def write (e : JournalEntry) : Job Unit := modify (fun w => { w with journal := w.journal.push e })

def report (message : String) (path : String := "") : Job Unit :=
  modify (fun w => { w with problems := w.problems ++ [{ message, path }] })

def log (level : LogLevel) (logger message : String) : Job Unit :=
  write (.logged { logger, level, message })

def onFiles (change : FileTree → Except Script.ErrorClass FileTree) : Job Unit := fun w =>
  match change w.files with
  | .ok t => .ok () { w with files := t }
  | .error category => .error (.system category) w

/-- The text of a value in a message. -/
def shown (v : Value) : Job String := act (Act.plain v)

/-- Compiles a source, or takes it from what was compiled before. -/
def compiled (source : String) : Job Script.Compiled := do
  let w ← get
  match w.evaluator.compile source with
  | .error (.refused refusal) => fail (.refusedSource source refusal)
  | .error .misplaced => fail .misplaced
  | .ok found =>
    set { w with evaluator := found.evaluator }
    if found.isNew then
      let mode := match found.compiled.program with
        | .expression _ => "eval"
        | .block _ => "exec"
      let text := Text.quote (String.ofList (Script.sourceText source))
      log .debug "stepflow.expressions.evaluator" s!"Compiled {mode} expression: {text}"
    return found.compiled

/-- Compiles a value, which has to be a text. -/
def compiledValue (v : Value) : Job Script.Compiled := do
  match v with
  | .str source => compiled source
  | v => do
    act (Act.checkKey v)
    let shown ← act (Act.quoted v)
    fail (.refusedSource shown (.notText (v.className (← get).heap)))

def compile (source : String) : Job Script.Program := do return (← compiled source).program

def evaluate (program : Script.Program) (bindings : Entries) : Job Value := do
  act (Script.evaluate (← get).evaluator.builtins program bindings)

end Job

end Workflow
