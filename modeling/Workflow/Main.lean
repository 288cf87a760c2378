import Workflow.Command.Outcome

/-! The program: it reads the files that a command may look at, and writes what the command changed. -/

namespace Workflow.Main
open Command

def usageText : String :=
  "usage: stepflow [-h] \x7bvalidate,run,resume\x7d ...\n\n" ++
    "  validate WORKFLOW\n" ++
    "  run WORKFLOW SCHEMA [--context KEY=VALUE] [--context-file FILE] [--input JSON] " ++
    "[--state-file FILE]\n" ++
    "  resume WORKFLOW [--state-file FILE] [--input JSON]\n\n" ++
    "Each takes [--debug] [--quiet] [--verbose] [--log-level \x7bdebug,info,warn,error\x7d]."

/-- What lies at a path of the system. -/
def nodeAt (path : String) : IO (Option Node) := do
  try return some (.file (← IO.FS.readFile path))
  catch _ =>
    try return if ← (← IO.FS.realPath path).isDir then some .directory else none
    catch _ => return none

/-- A tree with what lies at a path and at the directories that lead to it. -/
def look (t : FileTree) (p : FilePath) : IO FileTree :=
  (List.range p.parts.length).foldlM (fun t i => do
    let p := { p with parts := p.parts.take (i + 1) }
    match t.locate p with
    | .error _ => return t
    | .ok place =>
      match ← nodeAt p.text with
      | some n => return t.put place n
      | none => return t) t

/-- The files that the arguments of a command name, in the current directory. -/
def filesFor (args : List String) : IO FileTree := do
  let home := (FilePath.ofText (← IO.currentDir).toString).parts
  let t : FileTree :=
    { entries := ((FileTree.around home ++ [home]).drop 1).map (fun dir => (dir, .directory)), home }
  match Invocation.ofArguments? false args with
  | .ok (some i) => (i.files ++ i.files.map (·.resolve home)).foldlM look t
  | _ => return t

def pathText (place : List String) : String := ({ isAbsolute := true, parts := place } : FilePath).text

/-- Brings the files of the system from one state into another. -/
def store (before after : FileTree) : IO Unit := do
  for (place, node) in after.entries do
    if before.find? place != some node then
      match node with
      | .directory => IO.FS.createDirAll (pathText place)
      | .file text => do
        let temporary := pathText place ++ ".new"
        IO.FS.writeFile temporary text
        IO.FS.rename temporary (pathText place)
  for (place, _) in before.entries do
    if (after.find? place).isNone then IO.FS.removeFile (pathText place)

def tell (e : JournalEntry) : IO Unit :=
  match e with
  | .printed line => IO.println line
  | .complained line => IO.eprintln line
  | .logged r => IO.eprintln s!"{r.logger} - {r.level.name} - {r.message}"
  | .heard _ _ => return ()

end Workflow.Main

open Workflow Workflow.Main in
def main (args : List String) : IO UInt32 := do
  let before ← filesFor args
  let (outcome, w) := Command.execute args before
  store before w.files
  w.journal.forM Main.tell
  match outcome with
  | .usage code => do
    IO.println usageText
    return code.toNat.toUInt32
  | .exit code => return code.toNat.toUInt32
  | .fault f => do
    IO.eprintln (f.message w.heap)
    return 1
