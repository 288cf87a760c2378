import Workflow.Script.Outline

/-! Rules on where the parts of a program may stand, beyond the grammar: `return` and `yield` inside
functions, `break` and `continue` inside loops, starred items inside groups. A program that breaks
one of them is no program, although it can be read. -/

namespace Workflow.Script.Placement

/-- Where an expression stands. -/
structure Place where
  inFunction : Bool
  inComprehension : Bool := false
  /-- Inside the source of a comprehension, where no name may be bound. -/
  inSource : Bool := false
  /-- Names that the comprehensions around it run over. -/
  running : List String := []

def distinct (names : List String) : Bool := names.eraseDups.length == names.length

def allowsStarred : Mark → Bool
  | .group => true
  | .call _ => true
  | _ => false

mutual

/-- The names in a target, apart from those in scopes of their own. -/
def targetNames : Outline → List String
  | .node (.name id) _ => [id]
  | .node (.lambda _) [outer, _] => targetNames outer
  | .node .comprehension _ => []
  | .node _ parts => targetNamesOf parts

def targetNamesOf : List Outline → List String
  | [] => []
  | t :: rest => targetNames t ++ targetNamesOf rest

end

/-- The names that the clauses among some parts run over. -/
def runningNames (parts : List Outline) : List String :=
  parts.flatMap (fun
    | .node .clause (target :: _) => targetNames target
    | _ => [])

mutual

/-- An expression may stand at a place. -/
def allowed (place : Place) : Outline → Bool
  | .node mark parts =>
    (allowsStarred mark || !(parts.any (fun t => t.mark == .starred))) &&
    match mark, parts with
    | .yields, parts => place.inFunction && !place.inComprehension && allAllowed place parts
    | .awaits, _ => false
    | .binding id, parts => !place.inSource && !place.running.contains id && allAllowed place parts
    | .call keywords, parts => distinct keywords && allAllowed place parts
    | .lambda params, [outer, body] =>
      distinct params && allowed place outer &&
        allowed { inFunction := true, inSource := place.inSource } body
    | .comprehension, parts =>
      let running := runningNames parts ++ place.running
      allowedParts { place with inComprehension := true, running } place true parts
    | _, parts => allAllowed place parts

def allAllowed (place : Place) : List Outline → Bool
  | [] => true
  | t :: rest => allowed place t && allAllowed place rest

/-- The parts of a comprehension. The source of its first clause is read outside of it. -/
def allowedParts (inside outside : Place) (first : Bool) : List Outline → Bool
  | [] => true
  | .node .clause (target :: source :: conditions) :: rest =>
    allowed inside target &&
    allowed { (if first then outside else inside) with inSource := true } source &&
    allAllowed inside conditions && allowedParts inside outside false rest
  | t :: rest => allowed inside t && allowedParts inside outside first rest

end

mutual

/-- At most one item of each group of targets is starred. -/
def sparse : Outline → Bool
  | .node .group parts =>
    (parts.filter (fun t => t.mark == .starred)).length ≤ 1 && sparseAll parts
  | .node .starred parts => sparseAll parts
  | _ => true

def sparseAll : List Outline → Bool
  | [] => true
  | t :: rest => sparse t && sparseAll rest

end

def target (place : Place) (e : Expr) : Bool :=
  e.outline.mark != .starred && allowed place e.outline && sparse e.outline

def expr (place : Place) (e : Expr) : Bool :=
  e.outline.mark != .starred && allowed place e.outline

def option (place : Place) (e : Option Expr) : Bool := e.all (expr place)

/-- Only the last handler may catch everything. -/
def catchAllLast : List Handler → Bool
  | [] => true
  | [_] => true
  | .mk type _ _ :: rest => type.isSome && catchAllLast rest

mutual

def stmt (inFunction inLoop : Bool) : Stmt → Bool
  | .expr value => expr { inFunction } value
  | .assign targets value => targets.all (target { inFunction }) && expr { inFunction } value
  | .augment e _ value => target { inFunction } e && expr { inFunction } value
  | .annotate e hint value =>
    target { inFunction } e && expr { inFunction } hint && option { inFunction } value
  | .delete targets => targets.all (expr { inFunction })
  | .branch test body orelse =>
    expr { inFunction } test && block inFunction inLoop body && block inFunction inLoop orelse
  | .whileLoop test body orelse =>
    expr { inFunction } test && block inFunction true body && block inFunction inLoop orelse
  | .forLoop e source body orelse =>
    target { inFunction } e && expr { inFunction } source && block inFunction true body &&
      block inFunction inLoop orelse
  | .pass => true
  | .breakLoop => inLoop
  | .continueLoop => inLoop
  | .giveBack value => inFunction && option { inFunction } value
  | .raise error cause => option { inFunction } error && option { inFunction } cause
  | .assertion test message => expr { inFunction } test && option { inFunction } message
  | .guarded body handlers orelse final =>
    block inFunction inLoop body && catchAllLast handlers && handled inFunction inLoop handlers &&
      block inFunction inLoop orelse && block inFunction inLoop final
  | .function _ params body decorators result =>
    distinct params.names && allowed { inFunction } params.outline &&
      decorators.all (expr { inFunction }) && option { inFunction } result && block true false body
  | .foreign _ => true

def block (inFunction inLoop : Bool) : List Stmt → Bool
  | [] => true
  | s :: rest => stmt inFunction inLoop s && block inFunction inLoop rest

def handled (inFunction inLoop : Bool) : List Handler → Bool
  | [] => true
  | .mk type _ body :: rest =>
    option { inFunction } type && block inFunction inLoop body && handled inFunction inLoop rest

end

def program : Program → Bool
  | .expression body => expr { inFunction := false } body
  | .block body => block false false body

end Workflow.Script.Placement
