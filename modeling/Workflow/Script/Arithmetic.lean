import Workflow.Script.Iteration
import Workflow.Number.Division

/-! Operators on numbers. -/

namespace Workflow.Script

namespace BinaryOp

def sign : BinaryOp → String
  | .add => "+"
  | .sub => "-"
  | .mul => "*"
  | .matMul => "@"
  | .div => "/"
  | .floorDiv => "//"
  | .mod => "%"
  | .pow => "**"
  | .shiftLeft => "<<"
  | .shiftRight => ">>"
  | .bitAnd => "&"
  | .bitOr => "|"
  | .bitXor => "^"

/-- The operator as a refusal names it. -/
def title (op : BinaryOp) : String := if op == .pow then "** or pow()" else op.sign

end BinaryOp

/-- A number as an operand. -/
inductive Numeric where
  | whole (n : Int)
  | real (x : Float)

def Value.numeric? : Value → Option Numeric
  | .float x => some (.real x)
  | v => v.int?.map .whole

namespace Act

def zeroDivision (message : String) : Act α := fail .zeroDivision message

/-- The double of a whole number, which must be in range. -/
def toFloat (n : Int) : Act Float :=
  match Number.floatOfInt? n with
  | some x => return x
  | none => fail .overflow "int too large to convert to float"

def real : Numeric → Act Float
  | .whole n => toFloat n
  | .real x => return x

end Act

def floatPower (x y : Float) : Act Value := do
  if x == 0.0 && y < 0.0 then Act.zeroDivision "0.0 cannot be raised to a negative power"
  let power := Float.pow x y
  if power.isInf && !x.isInf && !y.isInf then
    Act.failWith .overflow [.int 34, .str "Numerical result out of range"]
  else return .float power

/-- An operator on whole numbers, or none if it has no meaning for them. -/
def wholeOp (op : BinaryOp) (n m : Int) : Act (Option Value) := do
  match op with
  | .add => return some (.int (n + m))
  | .sub => return some (.int (n - m))
  | .mul => return some (.int (n * m))
  | .matMul => return none
  | .div =>
    if m == 0 then Act.zeroDivision "division by zero"
    let x := Number.nearestDouble ((n < 0) != (m < 0)) ⟨n.natAbs, m.natAbs⟩
    if x.isInf then Act.fail .overflow "integer division result too large for a float"
    return some (.float x)
  | .floorDiv =>
    if m == 0 then Act.zeroDivision "integer division or modulo by zero"
    return some (.int (Int.fdiv n m))
  | .mod =>
    if m == 0 then Act.zeroDivision "integer modulo by zero"
    return some (.int (Int.fmod n m))
  | .pow =>
    if m ≥ 0 then return some (.int (Int.pow n m.toNat))
    else some <$> floatPower (← Act.toFloat n) (← Act.toFloat m)
  | .shiftLeft =>
    if m < 0 then Act.valueError "negative shift count"
    return some (.int (n * Int.pow 2 m.toNat))
  | .shiftRight =>
    if m < 0 then Act.valueError "negative shift count"
    return some (.int (Int.fdiv n (Int.pow 2 m.toNat)))
  | .bitAnd => return some (.int (Number.bitAnd n m))
  | .bitOr => return some (.int (Number.bitOr n m))
  | .bitXor => return some (.int (Number.bitXor n m))

/-- An operator on doubles, or none if it has no meaning for them. -/
def realOp (op : BinaryOp) (x y : Float) : Act (Option Value) := do
  match op with
  | .add => return some (.float (x + y))
  | .sub => return some (.float (x - y))
  | .mul => return some (.float (x * y))
  | .div =>
    if y == 0.0 then Act.zeroDivision "float division by zero"
    return some (.float (x / y))
  | .floorDiv =>
    if y == 0.0 then Act.zeroDivision "float floor division by zero"
    return some (.float (Number.floorDivision x y).1)
  | .mod =>
    if y == 0.0 then Act.zeroDivision "float modulo"
    return some (.float (Number.floorDivision x y).2)
  | .pow => some <$> floatPower x y
  | _ => return none

/-- Operators that two doubles may have. -/
def BinaryOp.isReal : BinaryOp → Bool
  | .add => true
  | .sub => true
  | .mul => true
  | .div => true
  | .floorDiv => true
  | .mod => true
  | .pow => true
  | _ => false

/-- A bitwise operator on two truth values gives one. -/
def truthOp? (op : BinaryOp) : Value → Value → Option Value
  | .bool b, .bool c =>
    match op with
    | .bitAnd => some (.bool (b && c))
    | .bitOr => some (.bool (b || c))
    | .bitXor => some (.bool (b != c))
    | _ => none
  | _, _ => none

/-- An operator on two numbers, or none if the values or the operator do not fit. -/
def numberOp (op : BinaryOp) (v w : Value) : Act (Option Value) := do
  match truthOp? op v w with
  | some b => return some b
  | none =>
    match v.numeric?, w.numeric? with
    | some (.whole n), some (.whole m) => wholeOp op n m
    | some x, some y => if op.isReal then realOp op (← Act.real x) (← Act.real y) else return none
    | _, _ => return none

def UnaryOp.sign : UnaryOp → String
  | .plus => "+"
  | .minus => "-"
  | .invert => "~"
  | .not => "not"

/-- The operand counted as a number, under a sign. -/
def unary (op : UnaryOp) (v : Value) : Act Value := do
  match op, v.numeric? with
  | .not, _ => return .bool (!(← Act.truth v))
  | .plus, some (.whole n) => return .int n
  | .minus, some (.whole n) => return .int (-n)
  | .invert, some (.whole n) => return .int (Number.complement n)
  | .plus, some (.real x) => return .float x
  | .minus, some (.real x) => return .float (-x)
  | _, _ => Act.typeError s!"bad operand type for unary {op.sign}: '{← Act.typeName v}'"

end Workflow.Script
