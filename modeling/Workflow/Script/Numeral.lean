import Workflow.Number.Reading
import Workflow.Script.Act

/-! Numbers that scripts and documents read from texts. -/

namespace Workflow.Script.Act

/-- The whole number that a text gives in a base. -/
def intOfText (base : Nat) (s : String) : Act Int := do
  match Number.intOfText? base s with
  | some n =>
    let digits := Number.countedDigits base s
    if digits > Number.digitLimit then valueError (Number.unreadable digits)
    return n
  | none => valueError s!"invalid literal for int() with base {base}: {← quoted (.str s)}"

def floatOfText (s : String) : Act Float := do
  match Number.floatOfText? s with
  | some x => return x
  | none => valueError s!"could not convert string to float: {← quoted (.str s)}"

end Workflow.Script.Act
