import Workflow.Text.Search

/-! Paths of files, in a form without empty parts and without single dots. -/

namespace Workflow

structure FilePath where
  isAbsolute : Bool := false
  parts : List String := []
  deriving DecidableEq, Repr

namespace FilePath

def ofText (s : String) : FilePath :=
  { isAbsolute := s.toList.head? == some '/'
    parts := ((Text.splitAt ['/'] none s.toList).map String.ofList).filter (fun part => !part.isEmpty && part != ".") }

def text (p : FilePath) : String :=
  let joined := "/".intercalate p.parts
  if p.isAbsolute then "/" ++ joined else if p.parts.isEmpty then "." else joined

def parent (p : FilePath) : FilePath := { p with parts := p.parts.dropLast }

/-- A file name with another ending in place of its own. The ending starts at the last dot that is
neither the first nor the last character. -/
def nameWithEnding (name ending : String) : String :=
  let reversed := name.toList.reverse
  let last := reversed.takeWhile (· != '.')
  let stem := (reversed.drop (last.length + 1)).reverse
  let hasEnding := !last.isEmpty && !stem.isEmpty && last.length < reversed.length
  (if hasEnding then String.ofList stem else name) ++ ending

/-- The path of a file with another ending, unless the path has no name. -/
def withEnding? (p : FilePath) (ending : String) : Option FilePath :=
  match p.parts.getLast? with
  | none => none
  | some name => some { p with parts := p.parts.dropLast ++ [nameWithEnding name ending] }

/-- Takes back a part for each pair of dots. -/
def collapse (parts : List String) : List String :=
  parts.foldl (fun found part => if part == ".." then found.dropLast else found ++ [part]) []

/-- The absolute path that a path stands for in a directory. -/
def resolve (home : List String) (p : FilePath) : FilePath :=
  { isAbsolute := true, parts := collapse (if p.isAbsolute then p.parts else home ++ p.parts) }

end FilePath

end Workflow
