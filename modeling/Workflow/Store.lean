import Workflow.Json.Printer
import Workflow.Json.Reader
import Workflow.Script.Data
import Workflow.World

/-! Stored states: the snapshot of a halted call in a file. A snapshot is written beside its file and
then moved there, so that a failing write leaves the file as it was. -/

namespace Workflow
open Script (Value Act Entries)

namespace Store

def logger : String := "stepflow.state"

def textOf (schema snapshot : Value) : Job String := do
  match snapshot.data (← get).heap with
  | .ok j => return j.pretty
  | .error .tooDeep => Job.act (Act.fail .recursion Script.DataFault.tooDeep.message)
  | .error fault => do Job.refuse (.notSavable (← Job.shown schema) fault.message)

/-- Makes the directories around a file. -/
def makeAround (path : FilePath) : Job Unit := fun w =>
  match w.files.makeDirectories (path.parts.length + 1) path.parent with
  | (.ok (), files) => .ok () { w with files }
  | (.error category, files) => .error (.system category) { w with files }

/-- Writes a text to a file by way of another one, which is gone in any case. -/
def replace (path temporary : FilePath) (text : String) : Job Unit := fun w =>
  let moved := do (← w.files.write temporary text).move temporary path
  match moved with
  | .ok files => .ok () { w with files }
  | .error category =>
    let written := match w.files.write temporary text with
      | .ok files => files
      | .error _ => w.files
    if written.exists? temporary then
      match written.remove temporary with
      | .ok files => .error (.system category) { w with files }
      | .error other => .error (.system other) { w with files := written }
    else .error (.system category) { w with files := written }

def save (path : FilePath) (r : Result) : Job Value := do
  let snapshot ← Job.act r.snapshot
  let text ← textOf r.schema snapshot
  makeAround path
  match path.withEnding? ".tmp" with
  | none => Job.act (Act.valueError s!"PosixPath('{path.text}') has an empty name")
  | some temporary => replace path temporary text
  Job.log .debug logger s!"Saved execution state to {path.text}"
  return snapshot

def read (path : FilePath) : Job String := do
  match (← get).files.read path with
  | .ok text => return text
  | .error category => Job.fail (.system category)

/-- The value of a JSON text, which may be refused on its own terms. -/
def parse (text : String) (refusal : Invalid) : Job Value := do
  match Json.read text with
  | .ok j => Job.act (Script.ofJson j)
  | .error .malformed => Job.refuse refusal
  | .error (.longNumber digits) => Job.act (Act.valueError (Number.unreadable digits))

def load (path : FilePath) : Job Entries := do
  if !(← get).files.exists? path then Job.fail (.missing .state path.text)
  let v ← parse (← read path) .corrupted
  match v.entries? (← get).heap with
  | some entries =>
    if (Entries.named? entries "schema_id").isSome && (Entries.named? entries "state").isSome then
      return entries
    else Job.refuse .notSnapshot
  | none => Job.refuse .notSnapshot

/-- Removes a snapshot, if there is one. -/
def clear (path : FilePath) : Job Unit := do
  if (← get).files.exists? path then
    Job.onFiles (fun t => t.remove path)
    Job.log .debug logger s!"Removed execution state {path.text}"

end Store

end Workflow
