import Workflow.Script.Operator

/-! Sorting by insertion: each item goes behind the last one that it is not less than, so that equal
items keep their order. -/

namespace Workflow.Script

/-- The place for a key among the first `high` items, which are sorted, from `low` on. -/
def placeFor (key : Value) (items : Array (Value × Value)) :
    (steps : Nat) → (low high : Nat) → Act Nat
  | 0, low, _ => return low
  | steps + 1, low, high => do
    if low < high then
      let middle := (low + high) / 2
      match items[middle]? with
      | some (other, _) =>
        if ← Act.ordered .less key other then placeFor key items steps low middle
        else placeFor key items steps (middle + 1) high
      | none => return low
    else return low

def insertSorted : (keyed : List (Value × Value)) → (sorted : Array (Value × Value)) →
    Act (Array (Value × Value))
  | [], sorted => return sorted
  | (key, v) :: rest, sorted => do
    let place ← placeFor key sorted (sorted.size + 1) 0 sorted.size
    insertSorted rest (sorted.extract 0 place ++ #[(key, v)] ++ sorted.extract place sorted.size)

def keyed (m : Machine) (key : Value) : List Value → Act (List (Value × Value))
  | [] => return []
  | v :: rest => do
    let k ← match key with
      | .nothing => pure v
      | key => m.call key [v] []
    return (k, v) :: (← keyed m key rest)

/-- The items in the order of their keys. In reverse, equal items still keep their order. -/
def sortValues (m : Machine) (key : Value) (reverse : Bool) (items : List Value) :
    Act (Array Value) := do
  let pairs ← keyed m key items
  let sorted ← insertSorted (if reverse then pairs.reverse else pairs) #[]
  let values := sorted.map (·.2)
  return if reverse then values.reverse else values

end Workflow.Script
