import Workflow.Schema.Item

/-! Paths to the parts of a schema. -/

namespace Workflow

/-- One way down from a row or from an item. -/
inductive Place where
  | item (index : Nat)
  | steps
  | gate
  | test
  | marker (signal : Signal)
  deriving DecidableEq, Repr

def Place.text : Place → String
  | .item index => s!"[{index}]"
  | .steps => ".steps"
  | .gate => ".condition"
  | .test => ".while"
  | .marker signal => "." ++ signal.name

/-- A way down from the outermost row. -/
abbrev Path := List Place

def Path.text (path : Path) : String := "steps" ++ String.join (path.map Place.text)

end Workflow
