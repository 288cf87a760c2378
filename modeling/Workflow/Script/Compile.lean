import Workflow.Script.Statement
import Workflow.Script.Restriction
import Workflow.Script.Placement
import Workflow.Text.Quoted

/-! From a source to a program. -/

namespace Workflow.Script

/-- Why a source is refused. -/
inductive Refusal where
  | notText (typeName : String)
  | empty
  | grammar
  | offence (o : Offence)
  deriving DecidableEq, Repr

def Refusal.reason : Refusal → String
  | .notText typeName => s!"expected string, got {typeName}"
  | .empty => "empty expression"
  | .grammar => "syntax error"
  | .offence o => o.message

/-- The message of a refusal, with the source in its written form. -/
def Refusal.message (source : String) (r : Refusal) : String :=
  s!"Invalid expression {Text.quote source}: {r.reason}"

/-- Why a source has no program. Apart from a refusal, it may break a rule on where its parts stand. -/
inductive CompileFault where
  | refused (r : Refusal)
  | misplaced
  deriving DecidableEq, Repr

/-- The text of a source that is read: blanks around it do not count. -/
def sourceText (source : String) : List Char := Text.trim Text.isBlank source.toList

/-- The program of a source. Names and attributes are checked before places. -/
def compile (source : String) : Except CompileFault Program :=
  let text := sourceText source
  if text.isEmpty then .error (.refused .empty)
  else if text.contains '\x00' then .error (.refused .grammar)
  else
    match Parser.program? text with
    | none => .error (.refused .grammar)
    | some p =>
      match Offence.first? p.outline with
      | some o => .error (.refused (.offence o))
      | none => if Placement.program p then .ok p else .error .misplaced

end Workflow.Script
