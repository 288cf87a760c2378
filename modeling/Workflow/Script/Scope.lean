import Workflow.Script.Placement
import Workflow.Script.Act

/-! Which names a function keeps to itself, and finding and binding names in frames. -/

namespace Workflow.Script

namespace Scope

mutual

/-- Names that expressions bind where they stand. Functions without a name keep their own. -/
def bindings : Outline → List String
  | .node (.lambda _) (params :: _) => bindings params
  | .node (.binding id) parts => id :: bindingsOf parts
  | .node _ parts => bindingsOf parts

def bindingsOf : List Outline → List String
  | [] => []
  | t :: rest => bindings t ++ bindingsOf rest

end

def inExpr (e : Expr) : List String := bindings e.outline

def inOption (e : Option Expr) : List String := (e.map inExpr).getD []

def target (e : Expr) : List String := Placement.targetNames e.outline ++ inExpr e

mutual

/-- Names that a statement binds. -/
def stmt : Stmt → List String
  | .expr value => inExpr value
  | .assign targets value => targets.flatMap target ++ inExpr value
  | .augment e _ value => target e ++ inExpr value
  | .annotate e hint value => target e ++ inExpr hint ++ inOption value
  | .delete targets => targets.flatMap target
  | .branch test body orelse => inExpr test ++ block body ++ block orelse
  | .whileLoop test body orelse => inExpr test ++ block body ++ block orelse
  | .forLoop e source body orelse => target e ++ inExpr source ++ block body ++ block orelse
  | .giveBack value => inOption value
  | .raise error cause => inOption error ++ inOption cause
  | .assertion test message => inExpr test ++ inOption message
  | .guarded body handlers orelse final =>
    block body ++ handled handlers ++ block orelse ++ block final
  | .function name params _ decorators result =>
    name :: bindings params.outline ++ decorators.flatMap inExpr ++ inOption result
  | .pass => []
  | .breakLoop => []
  | .continueLoop => []
  | .foreign _ => []

def block : List Stmt → List String
  | [] => []
  | s :: rest => stmt s ++ block rest

def handled : List Handler → List String
  | [] => []
  | .mk type name body :: rest => inOption type ++ name.toList ++ block body ++ handled rest

end

/-- The names that a function keeps to itself. -/
def ofBody (params : Params) : Body → List String
  | .expression e => params.names ++ inExpr e
  | .block stmts => params.names ++ block stmts

/-- Frames nest no deeper than this. -/
def frameLimit : Nat := 300

end Scope

namespace Frame

def get? (f : Frame) (name : String) : Option Value := (f.values.find? (·.1 == name)).map (·.2)

def set (f : Frame) (name : String) (v : Value) : Frame :=
  if f.values.any (·.1 == name) then
    { f with values := f.values.map (fun (n, w) => if n == name then (n, v) else (n, w)) }
  else { f with values := f.values ++ [(name, v)] }

def unset (f : Frame) (name : String) : Frame :=
  { f with values := f.values.filter (·.1 != name) }

end Frame

namespace Act

def frame (a : Addr) : Act Frame := do
  match ← object a with
  | .frame f => return f
  | _ => return { kind := .module }

def undefined (name : String) : Act α :=
  fail .unknownName s!"name '{name}' is not defined"

def unboundLocal (name : String) : Act α :=
  fail .unboundLocal
    s!"cannot access local variable '{name}' where it is not associated with a value"

/-- The value of a name, from a frame outward. `outside` holds once the frame of the code has been
left. -/
def lookupFrom (name : String) : (frames : Nat) → (outside : Bool) → Addr → Act Value
  | 0, _, _ => throw .exhausted
  | frames + 1, outside, a => do
    let f ← frame a
    if f.kind == .module then
      match (f.get? name).or ((f.builtins.find? (·.1 == name)).map (·.2)) with
      | some v => return v
      | none => undefined name
    else if f.declared.contains name then
      match f.get? name with
      | some v => return v
      | none =>
        if outside then
          fail .unknownName (s!"cannot access free variable '{name}' where it is not associated " ++
            s!"with a value in enclosing scope")
        else unboundLocal name
    else
      match f.outer with
      | some outer => lookupFrom name frames true outer
      | none => undefined name

def lookup (scope : Addr) (name : String) : Act Value := lookupFrom name Scope.frameLimit false scope

/-- Binds a name in the frame of the code. A comprehension only keeps the names that it runs over. -/
def bindFrom (name : String) (v : Value) : (frames : Nat) → Addr → Act Unit
  | 0, _ => throw .exhausted
  | frames + 1, a => do
    let f ← frame a
    match f.kind, f.outer with
    | .comprehension, some outer =>
      if f.declared.contains name then write a (.frame (f.set name v))
      else bindFrom name v frames outer
    | _, _ => write a (.frame (f.set name v))

def bindName (scope : Addr) (name : String) (v : Value) : Act Unit :=
  bindFrom name v Scope.frameLimit scope

def unbindName (scope : Addr) (name : String) : Act Unit := do
  let f ← frame scope
  if (f.get? name).isSome then write scope (.frame (f.unset name))
  else if f.kind == .module then undefined name
  else unboundLocal name

end Act

end Workflow.Script
