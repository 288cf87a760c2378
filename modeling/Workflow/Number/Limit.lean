/-! Whole numbers with too many digits are neither read nor written in decimal. -/

namespace Workflow.Number

def digitLimit : Nat := 4300

/-- Whether a number has too many digits to be written. -/
def isLong (n : Int) : Bool := n.natAbs ≥ Nat.pow 10 digitLimit

def longText (what : String) : String :=
  s!"Exceeds the limit (4300 digits) for integer string conversion{what}; " ++
    "use sys.set_int_max_str_digits() to increase the limit"

/-- The refusal to write a number. -/
def unwritable : String := longText ""

/-- The refusal to read a number with some digits. -/
def unreadable (digits : Nat) : String := longText s!": value has {digits} digits"

end Workflow.Number
