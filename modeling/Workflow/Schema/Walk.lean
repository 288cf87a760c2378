import Workflow.Schema.Path

/-! Walks through a schema in its written order. -/

namespace Workflow

/-- Seen from further up. -/
def below (places : Path) (found : List (Path × α)) : List (Path × α) :=
  found.map (fun (path, a) => (places ++ path, a))

def gateAt (gate : Option Condition) : List (Path × Condition) :=
  gate.toList.map (fun c => ([.gate], c))

mutual

def Item.stepIds : Item → List (Path × String)
  | .step id _ _ => [([], id)]
  | .block items _ => below [.steps] (stepIdsFrom 0 items)
  | .loop _ items _ => below [.steps] (stepIdsFrom 0 items)
  | .marker _ _ => []

def stepIdsFrom : (index : Nat) → List Item → List (Path × String)
  | _, [] => []
  | index, item :: rest => below [.item index] item.stepIds ++ stepIdsFrom (index + 1) rest

end

mutual

/-- The conditions in an item, with their paths: its gate, its test, and then its contents. -/
def Item.conditions : Item → List (Path × Condition)
  | .step _ _ gate => gateAt gate
  | .block items gate => gateAt gate ++ below [.steps] (conditionsFrom 0 items)
  | .loop test items gate =>
    gateAt gate ++ [([.test], test)] ++ below [.steps] (conditionsFrom 0 items)
  | .marker signal test => [([.marker signal], test)]

def conditionsFrom : (index : Nat) → List Item → List (Path × Condition)
  | _, [] => []
  | index, item :: rest => below [.item index] item.conditions ++ conditionsFrom (index + 1) rest

end

namespace Schema

def stepIds (schema : Schema) : List (Path × String) := stepIdsFrom 0 schema

def conditions (schema : Schema) : List (Path × Condition) := conditionsFrom 0 schema

end Schema

end Workflow
