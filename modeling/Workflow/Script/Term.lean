/-! Terms of the script language: expressions and statements. -/

namespace Workflow.Script

inductive BinaryOp where
  | add | sub | mul | matMul | div | floorDiv | mod | pow | shiftLeft | shiftRight
  | bitAnd | bitOr | bitXor
  deriving DecidableEq, Repr

inductive UnaryOp where
  | plus | minus | invert | not
  deriving DecidableEq, Repr

inductive Comparison where
  | equal | notEqual | less | lessEqual | greater | greaterEqual | same | notSame | member | notMember
  deriving DecidableEq, Repr

inductive Connective where
  | and | or
  deriving DecidableEq, Repr

inductive Literal where
  | none
  | ellipsis
  | bool (b : Bool)
  | int (n : Int)
  | float (x : Float)
  | text (s : String)
  deriving Repr

/-- What a comprehension builds. -/
inductive Collection where
  | list | set | dict | generator
  deriving DecidableEq, Repr

/-- How the value of a replacement field is turned into text before it is formatted. -/
inductive Conversion where
  | text | quoted | ascii
  deriving DecidableEq, Repr

mutual

inductive Expr where
  | literal (value : Literal)
  | name (id : String)
  | formatted (pieces : List Piece)
  | tuple (items : List Expr)
  | list (items : List Expr)
  | set (items : List Expr)
  | dict (entries : List Entry)
  | starred (item : Expr)
  | unary (op : UnaryOp) (operand : Expr)
  | binary (op : BinaryOp) (left right : Expr)
  | junction (op : Connective) (items : List Expr)
  | compare (left : Expr) (rest : List (Comparison × Expr))
  | conditional (test body orelse : Expr)
  | named (target : String) (value : Expr)
  | lambda (params : Params) (body : Expr)
  | comprehension (kind : Collection) (element : Expr) (value : Option Expr) (clauses : List Clause)
  | attribute (object : Expr) (name : String)
  | subscript (object index : Expr)
  | slice (lower upper step : Option Expr)
  | call (function : Expr) (args : List Expr) (keywords : List Keyword)
  | yield (value : Option Expr)
  | yieldFrom (value : Expr)
  | await (value : Expr)

/-- A part of a formatted text: plain text or a replacement field. -/
inductive Piece where
  | text (s : String)
  | field (value : Expr) (conversion : Option Conversion) (spec : List Piece)

/-- An entry of a dictionary display; one without a key unpacks a mapping. -/
inductive Entry where
  | mk (key : Option Expr) (value : Expr)

/-- A keyword argument; one without a name unpacks a mapping. -/
inductive Keyword where
  | mk (name : Option String) (value : Expr)

/-- One `for` clause of a comprehension with its conditions. -/
inductive Clause where
  | mk (target source : Expr) (conditions : List Expr)

inductive Param where
  | mk (name : String) (hint : Option Expr)

/-- Parameters in the order of their kinds; `defaults` belong to the last of the positional ones. -/
inductive Params where
  | mk (positionalOnly positional : List Param) (rest : Option Param) (keywordOnly : List Param)
      (keywordDefaults : List (Option Expr)) (keywordRest : Option Param) (defaults : List Expr)

end

instance : Inhabited Expr := ⟨.literal .none⟩

def Param.name : Param → String
  | .mk name _ => name

namespace Params

def positionalOnly : Params → List Param
  | .mk first _ _ _ _ _ _ => first

def positional : Params → List Param
  | .mk _ names _ _ _ _ _ => names

def rest : Params → Option Param
  | .mk _ _ r _ _ _ _ => r

def keywordOnly : Params → List Param
  | .mk _ _ _ names _ _ _ => names

def keywordDefaults : Params → List (Option Expr)
  | .mk _ _ _ _ values _ _ => values

def keywordRest : Params → Option Param
  | .mk _ _ _ _ _ r _ => r

def defaults : Params → List Expr
  | .mk _ _ _ _ _ _ values => values

/-- Every parameter name, in the order in which parameters are written. -/
def names (p : Params) : List String :=
  (p.positionalOnly ++ p.positional ++ p.rest.toList ++ p.keywordOnly ++ p.keywordRest.toList).map
    Param.name

end Params

/-- A statement that loads or rebinds names from elsewhere. All of them are refused. -/
inductive Foreign where
  | import
  | importFrom
  | global
  | nonlocal
  deriving DecidableEq, Repr

mutual

inductive Stmt where
  | expr (value : Expr)
  | assign (targets : List Expr) (value : Expr)
  | augment (target : Expr) (op : BinaryOp) (value : Expr)
  | annotate (target hint : Expr) (value : Option Expr)
  | delete (targets : List Expr)
  | branch (test : Expr) (body orelse : List Stmt)
  | whileLoop (test : Expr) (body orelse : List Stmt)
  | forLoop (target source : Expr) (body orelse : List Stmt)
  | pass
  | breakLoop
  | continueLoop
  | giveBack (value : Option Expr)
  | raise (error cause : Option Expr)
  | assertion (test : Expr) (message : Option Expr)
  | guarded (body : List Stmt) (handlers : List Handler) (orelse final : List Stmt)
  | function (name : String) (params : Params) (body : List Stmt) (decorators : List Expr)
      (result : Option Expr)
  | foreign (kind : Foreign)

inductive Handler where
  | mk (type : Option Expr) (name : Option String) (body : List Stmt)

end

/-- A source is one expression or a block of statements. -/
inductive Program where
  | expression (body : Expr)
  | block (body : List Stmt)

end Workflow.Script
