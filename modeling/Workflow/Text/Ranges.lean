/-! Classes of characters are kept as the sorted code points at which membership changes. -/

namespace Workflow.Text

/-- A code point belongs to the class when an odd number of changes lies at or below it. -/
def within (changes : List Nat) (point : Nat) : Bool :=
  (changes.takeWhile (· ≤ point)).length % 2 == 1

end Workflow.Text
