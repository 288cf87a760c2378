import Workflow.Files.FilePath
import Workflow.Script.Class

/-! Trees of files. An operation on one place that fails leaves the tree as it was. -/

namespace Workflow
open Script (ErrorClass)

inductive Node where
  | file (text : String)
  | directory
  deriving DecidableEq, Repr

/-- Files and directories at absolute places, and the directory that relative paths start from. -/
structure FileTree where
  entries : List (List String × Node) := []
  home : List String := []
  deriving Repr

namespace FileTree

def find? (t : FileTree) (place : List String) : Option Node :=
  if place.isEmpty then some .directory else (t.entries.find? (·.1 == place)).map (·.2)

def put (t : FileTree) (place : List String) (n : Node) : FileTree :=
  if t.entries.any (·.1 == place) then
    { t with entries := t.entries.map (fun entry => if entry.1 == place then (place, n) else entry) }
  else { t with entries := t.entries ++ [(place, n)] }

def erase (t : FileTree) (place : List String) : FileTree :=
  { t with entries := t.entries.filter (·.1 != place) }

/-- The place that parts lead to from a directory. Every place on the way has to be a directory. -/
def follow (t : FileTree) (place : List String) : List String → Except ErrorClass (List String)
  | [] => .ok place
  | part :: rest =>
    match t.find? place with
    | some .directory =>
      if part == ".." then t.follow place.dropLast rest else t.follow (place ++ [part]) rest
    | some (.file _) => .error .notADirectory
    | none => .error .fileNotFound

def locate (t : FileTree) (p : FilePath) : Except ErrorClass (List String) :=
  t.follow (if p.isAbsolute then [] else t.home) p.parts

/-- What lies at a path, if anything does. -/
def node? (t : FileTree) (p : FilePath) : Option Node :=
  match t.locate p with
  | .ok place => t.find? place
  | .error _ => none

def exists? (t : FileTree) (p : FilePath) : Bool := (t.node? p).isSome

def isDirectory (t : FileTree) (p : FilePath) : Bool := t.node? p == some .directory

def read (t : FileTree) (p : FilePath) : Except ErrorClass String := do
  match t.find? (← t.locate p) with
  | some (.file text) => .ok text
  | some .directory => .error .isADirectory
  | none => .error .fileNotFound

/-- Writes a file, which may be new. -/
def write (t : FileTree) (p : FilePath) (text : String) : Except ErrorClass FileTree := do
  let place ← t.locate p
  match t.find? place with
  | some .directory => .error .isADirectory
  | _ => .ok (t.put place (.file text))

def remove (t : FileTree) (p : FilePath) : Except ErrorClass FileTree := do
  let place ← t.locate p
  match t.find? place with
  | some (.file _) => .ok (t.erase place)
  | some .directory => .error .isADirectory
  | none => .error .fileNotFound

/-- Moves a file to another path, where it takes the place of a file. A path that ends with a step
upwards names no place of its own. -/
def move (t : FileTree) (source target : FilePath) : Except ErrorClass FileTree := do
  if target.parts.getLast? == some ".." then .error .system
  let text ← t.read source
  let start ← t.locate source
  let goal ← t.locate target
  match t.find? goal with
  | some .directory => .error .isADirectory
  | _ => .ok (if start == goal then t else (t.erase start).put goal (.file text))

def makeDirectory (t : FileTree) (p : FilePath) : Except ErrorClass FileTree := do
  let place ← t.locate p
  match t.find? place with
  | some _ => .error .fileExists
  | none => .ok (t.put place .directory)

/-- Makes a directory and those around it that are missing. It may be there already. Those around it stay when it
cannot be made. -/
def makeDirectories (t : FileTree) : (depth : Nat) → FilePath → Except ErrorClass Unit × FileTree
  | 0, _ => (.error .fileNotFound, t)
  | depth + 1, p =>
    match t.makeDirectory p with
    | .ok t => (.ok (), t)
    | .error .fileNotFound =>
      if p.parts.isEmpty then (.error .fileNotFound, t)
      else
        match t.makeDirectories depth p.parent with
        | (.error fault, t) => (.error fault, t)
        | (.ok (), t) =>
          match t.makeDirectory p with
          | .ok t => (.ok (), t)
          | .error fault => (if t.isDirectory p then .ok () else .error fault, t)
    | .error fault => (if t.isDirectory p then .ok () else .error fault, t)

/-- The directories around a place, from the outermost one inwards. -/
def around : (place : List String) → List (List String)
  | [] => []
  | part :: rest => [] :: (around rest).map (part :: ·)

/-- A tree with one more file, and with the directories around it. -/
def withFile (t : FileTree) (place : List String) (text : String) : FileTree :=
  let t := (around place).foldl
    (fun t dir => if (t.find? dir).isSome then t else t.put dir .directory) t
  t.put place (.file text)

end FileTree

end Workflow
