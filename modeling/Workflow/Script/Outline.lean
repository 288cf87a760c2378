import Workflow.Script.Term

/-! A term as a plain tree. A node keeps what checks ask about and its parts in the order in which
they are written down, so that a check is a walk over one kind of tree. -/

namespace Workflow.Script

inductive Mark where
  | name (id : String)
  | attribute (name : String)
  | foreign (kind : Foreign)
  /-- A name bound inside an expression. -/
  | binding (id : String)
  /-- Parts may be starred. -/
  | group
  /-- A call with the names of its keyword arguments; its plain arguments may be starred. -/
  | call (keywords : List String)
  | starred
  /-- A function without a name: its parameters and its body are the two parts. -/
  | lambda (params : List String)
  /-- What is built, and then the clauses. -/
  | comprehension
  /-- A target, a source and conditions. -/
  | clause
  | yields
  | awaits
  | plain
  deriving DecidableEq, Repr

inductive Outline where
  | node (mark : Mark) (parts : List Outline)

namespace Outline

def mark : Outline → Mark
  | .node m _ => m

def parts : Outline → List Outline
  | .node _ ps => ps

def leaf : Outline := .node .plain []

mutual

def height : Outline → Nat
  | .node _ parts => heightAll parts + 1

def heightAll : List Outline → Nat
  | [] => 0
  | t :: rest => max (height t) (heightAll rest)

end

end Outline

def Keyword.name? : Keyword → Option String
  | .mk name _ => name

mutual

def Expr.outline : Expr → Outline
  | .literal _ => .leaf
  | .name id => .node (.name id) []
  | .formatted pieces => .node .plain (Piece.outlines pieces)
  | .tuple items => .node .group (Expr.outlines items)
  | .list items => .node .group (Expr.outlines items)
  | .set items => .node .group (Expr.outlines items)
  | .dict entries => .node .plain (Entry.keyOutlines entries ++ Entry.valueOutlines entries)
  | .starred item => .node .starred [item.outline]
  | .unary _ operand => .node .plain [operand.outline]
  | .binary _ left right => .node .plain [left.outline, right.outline]
  | .junction _ items => .node .plain (Expr.outlines items)
  | .compare left rest => .node .plain (left.outline :: Expr.comparedOutlines rest)
  | .conditional test body orelse => .node .plain [test.outline, body.outline, orelse.outline]
  | .named target value => .node (.binding target) [.node (.name target) [], value.outline]
  | .lambda params body => .node (.lambda params.names) [params.outline, body.outline]
  | .comprehension _ element value clauses =>
    .node .comprehension
      (element.outline :: (Expr.optionOutline value ++ Clause.outlines clauses))
  | .attribute object name => .node (.attribute name) [object.outline]
  | .subscript object index => .node .plain [object.outline, index.outline]
  | .slice lower upper step =>
    .node .plain (Expr.optionOutline lower ++ Expr.optionOutline upper ++ Expr.optionOutline step)
  | .call function args keywords =>
    .node (.call (keywords.filterMap Keyword.name?))
      (function.outline :: (Expr.outlines args ++ Keyword.outlines keywords))
  | .yield value => .node .yields (Expr.optionOutline value)
  | .yieldFrom value => .node .yields [value.outline]
  | .await value => .node .awaits [value.outline]

def Expr.outlines : List Expr → List Outline
  | [] => []
  | e :: rest => e.outline :: Expr.outlines rest

def Expr.optionOutline : Option Expr → List Outline
  | none => []
  | some e => [e.outline]

def Expr.optionOutlines : List (Option Expr) → List Outline
  | [] => []
  | none :: rest => Expr.optionOutlines rest
  | some e :: rest => e.outline :: Expr.optionOutlines rest

def Expr.comparedOutlines : List (Comparison × Expr) → List Outline
  | [] => []
  | (_, e) :: rest => e.outline :: Expr.comparedOutlines rest

def Piece.outlines : List Piece → List Outline
  | [] => []
  | .text _ :: rest => .leaf :: Piece.outlines rest
  | .field value _ spec :: rest =>
    .node .plain [value.outline, .node .plain (Piece.outlines spec)] :: Piece.outlines rest

def Entry.keyOutlines : List Entry → List Outline
  | [] => []
  | .mk none _ :: rest => Entry.keyOutlines rest
  | .mk (some key) _ :: rest => key.outline :: Entry.keyOutlines rest

def Entry.valueOutlines : List Entry → List Outline
  | [] => []
  | .mk _ value :: rest => value.outline :: Entry.valueOutlines rest

def Keyword.outlines : List Keyword → List Outline
  | [] => []
  | .mk _ value :: rest => .node .plain [value.outline] :: Keyword.outlines rest

def Clause.outlines : List Clause → List Outline
  | [] => []
  | .mk target source conditions :: rest =>
    .node .clause (target.outline :: source.outline :: Expr.outlines conditions)
      :: Clause.outlines rest

def Param.outlines : List Param → List Outline
  | [] => []
  | .mk _ hint :: rest => .node .plain (Expr.optionOutline hint) :: Param.outlines rest

def Param.optionOutline : Option Param → List Outline
  | none => []
  | some (.mk _ hint) => [.node .plain (Expr.optionOutline hint)]

def Params.outline : Params → Outline
  | .mk positionalOnly positional rest keywordOnly keywordDefaults keywordRest defaults =>
    .node .plain (Param.outlines positionalOnly ++ Param.outlines positional ++
      Param.optionOutline rest ++ Param.outlines keywordOnly ++ Expr.optionOutlines keywordDefaults ++
      Param.optionOutline keywordRest ++ Expr.outlines defaults)

end

mutual

def Stmt.outline : Stmt → Outline
  | .expr value => .node .plain [value.outline]
  | .assign targets value => .node .plain (Expr.outlines targets ++ [value.outline])
  | .augment target _ value => .node .plain [target.outline, value.outline]
  | .annotate target hint value =>
    .node .plain (target.outline :: hint.outline :: Expr.optionOutline value)
  | .delete targets => .node .plain (Expr.outlines targets)
  | .branch test body orelse =>
    .node .plain (test.outline :: (Stmt.outlines body ++ Stmt.outlines orelse))
  | .whileLoop test body orelse =>
    .node .plain (test.outline :: (Stmt.outlines body ++ Stmt.outlines orelse))
  | .forLoop target source body orelse =>
    .node .plain (target.outline :: source.outline :: (Stmt.outlines body ++ Stmt.outlines orelse))
  | .pass => .leaf
  | .breakLoop => .leaf
  | .continueLoop => .leaf
  | .giveBack value => .node .plain (Expr.optionOutline value)
  | .raise error cause => .node .plain (Expr.optionOutline error ++ Expr.optionOutline cause)
  | .assertion test message => .node .plain (test.outline :: Expr.optionOutline message)
  | .guarded body handlers orelse final =>
    .node .plain (Stmt.outlines body ++ Handler.outlines handlers ++ Stmt.outlines orelse ++
      Stmt.outlines final)
  | .function _ params body decorators result =>
    .node .plain (params.outline :: (Stmt.outlines body ++ Expr.outlines decorators ++
      Expr.optionOutline result))
  | .foreign kind => .node (.foreign kind) []

def Stmt.outlines : List Stmt → List Outline
  | [] => []
  | s :: rest => s.outline :: Stmt.outlines rest

def Handler.outlines : List Handler → List Outline
  | [] => []
  | .mk type _ body :: rest =>
    .node .plain (Expr.optionOutline type ++ Stmt.outlines body) :: Handler.outlines rest

end

def Program.outline : Program → Outline
  | .expression body => .node .plain [body.outline]
  | .block body => .node .plain (Stmt.outlines body)

end Workflow.Script
