import Workflow.Command.Arguments
import Workflow.Files.FilePath
import Workflow.Log

/-! The commands and their options. -/

namespace Workflow.Command

inductive Request where
  | validate
  | run (schema : String) (assignments : List String) (contextFile : Option String)
  | resume
  deriving DecidableEq, Repr

/-- A command as it was called. The texts of values are not read yet. -/
structure Invocation where
  request : Request
  workflow : String
  input : Option String := none
  stateFile : String := ""
  isDebugging : Bool := false
  level : LogLevel := .warning
  deriving DecidableEq, Repr

namespace Invocation

def levels : List (String × LogLevel) :=
  [("debug", .debug), ("info", .info), ("warn", .warning), ("error", .error)]

def logRules : List OptionRule :=
  [⟨"--debug", .nothing⟩, ⟨"--quiet", .nothing⟩, ⟨"--verbose", .nothing⟩,
   ⟨"--log-level", .oneOf (levels.map (·.1))⟩]

def stateRules : List OptionRule := [⟨"--state-file", .value⟩, ⟨"--input", .value⟩]

def contextRules : List OptionRule := [⟨"--context", .value⟩, ⟨"--context-file", .value⟩]

/-- Where the state of a halted run is kept if nothing else is said. -/
def usualStateFile : String := ".stepflow/state.json"

/-- The level from which on records are shown. -/
def levelOf (g : Given) : LogLevel :=
  if g.has "--debug" then .debug
  else if g.has "--quiet" then .error
  else if g.has "--verbose" then .info
  else ((g.value? "--log-level").bind (fun name => (levels.find? (·.1 == name)).map (·.2))).getD
    .warning

def make (g : Given) (request : Request) : Invocation :=
  { request
    workflow := g.operands.headD ""
    input := g.value? "--input"
    stateFile := (g.value? "--state-file").getD usualStateFile
    isDebugging := g.has "--debug"
    level := levelOf g }

def ofCommand (name : String) (args : List String) : Except Misfit Invocation := do
  match name with
  | "validate" => return make (← Given.ofTexts logRules 1 args) .validate
  | "run" => do
    let g ← Given.ofTexts (contextRules ++ stateRules ++ logRules) 2 args
    let schema := (g.operands.drop 1).headD ""
    return make g (.run schema (g.values "--context") (g.value? "--context-file"))
  | "resume" => return make (← Given.ofTexts (stateRules ++ logRules) 1 args) .resume
  | _ => .error .misuse

/-- The invocation that arguments stand for, if they name a command at all. -/
def ofArguments? (hasUnknown : Bool) : List String → Except Misfit (Option Invocation)
  | [] => if hasUnknown then .error .misuse else .ok none
  | s :: rest => do
    if s == "--" then .error .misuse
    match ← Argument.ofText [] s with
    | .operand name => do
      let found ← ofCommand name rest
      if hasUnknown then .error .misuse
      return some found
    | .help glued => .error (Given.askedForHelp glued)
    | _ => ofArguments? true rest

/-- The files that a command looks at or writes, the temporary one of its state included. -/
def files (i : Invocation) : List FilePath :=
  let state := FilePath.ofText i.stateFile
  let states := state :: (state.withEnding? ".tmp").toList
  let contexts := match i.request with
    | .run _ _ (some file) => [FilePath.ofText file]
    | _ => []
  FilePath.ofText i.workflow :: contexts ++ states

end Invocation

end Workflow.Command
