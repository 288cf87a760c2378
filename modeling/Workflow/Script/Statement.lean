import Workflow.Script.Parser

/-! From tokens to statements, and from a source to a program. -/

namespace Workflow.Script.Parser

/-- The right side of an assignment. -/
def assigned (inner : Inner) : Rule Expr := fun ts =>
  if atWord "yield" ts then yieldExpr inner ts else inner .starred ts

/-- The values of a chain of assignments after the first target. -/
def chain (inner : Inner) : (fuel : Nat) → Rule (List Expr)
  | 0, ts => some ([], ts)
  | fuel + 1, ts =>
    match op "=" ts with
    | none => some ([], ts)
    | some (_, rest) => do
      let (value, rest) ← assigned inner rest
      let (more, rest) ← chain inner fuel rest
      some (value :: more, rest)

def augmentOp? : Rule BinaryOp
  | .op s :: rest => (augmentOps.find? (·.1 == s)).map (fun (_, o) => (o, rest))
  | _ => none

/-- An expression standing alone, or an assignment to it. -/
def assignment (inner : Inner) : Rule Stmt := fun ts => do
  let (first, rest) ← assigned inner ts
  match augmentOp? rest with
  | some (o, rest) =>
    let (value, rest) ← assigned inner rest
    if isSingleTarget first then some (.augment first o value, rest) else none
  | none =>
    if atOp ":" rest && isSingleTarget first then
      let (_, rest) ← op ":" rest
      let (hint, rest) ← inner .expression rest
      match op "=" rest with
      | none => some (.annotate first hint none, rest)
      | some (_, rest) =>
        let (value, rest) ← assigned inner rest
        some (.annotate first hint (some value), rest)
    else
      let (values, rest) ← chain inner rest.length rest
      match values.getLast? with
      | none => some (.expr first, rest)
      | some value =>
        let targets := first :: values.dropLast
        if targets.all isElementTarget then some (.assign targets value, rest) else none

def deletion (inner : Inner) : Rule Stmt := fun ts => do
  let ((items, _), rest) ← separated startsExpr (inner .bitOr) ts
  if areDeletable items then some (.delete items, rest) else none

def optional (rule : Rule Expr) (ts : List Token) : Option (Option Expr × List Token) :=
  if startsExpr ts then (rule ts).map (fun (e, left) => (some e, left)) else some (none, ts)

def raising (inner : Inner) : Rule Stmt := fun ts =>
  if startsExpr ts then do
    let (error, rest) ← inner .expression ts
    match word "from" rest with
    | none => some (.raise (some error) none, rest)
    | some (_, rest) =>
      let (cause, rest) ← inner .expression rest
      some (.raise (some error) (some cause), rest)
  else some (.raise none none, ts)

def asserting (inner : Inner) : Rule Stmt := fun ts => do
  let (test, rest) ← inner .expression ts
  match op "," rest with
  | none => some (.assertion test none, rest)
  | some (_, rest) =>
    let (message, rest) ← inner .expression rest
    some (.assertion test (some message), rest)

/-! Imports are read only to be refused. -/

def dotted : (fuel : Nat) → Rule Unit
  | 0, _ => none
  | fuel + 1, ts => do
    let (_, rest) ← identifier ts
    match op "." rest with
    | some (_, more) => dotted fuel more
    | none => some ((), rest)

def renamed (rule : Rule Unit) : Rule Unit := fun ts => do
  let (_, rest) ← rule ts
  match word "as" rest with
  | some (_, more) => (identifier more).map (fun (_, left) => ((), left))
  | none => some ((), rest)

def startsName (ts : List Token) : Bool := (identifier ts).isSome

def plainName : Rule Unit := fun ts => (identifier ts).map (fun (_, left) => ((), left))

def importing : Rule Stmt := fun ts => do
  let ((_, trailing), rest) ← separated startsName (renamed (dotted ts.length)) ts
  if trailing then none else some (.foreign .import, rest)

def importedNames : Rule Unit := fun ts =>
  match op "*" ts with
  | some (_, rest) => some ((), rest)
  | none =>
    match op "(" ts with
    | some (_, rest) => do
      let (_, rest) ← separated startsName (renamed plainName) rest
      op ")" rest
    | none => do
      let ((_, trailing), rest) ← separated startsName (renamed plainName) ts
      if trailing then none else some ((), rest)

def importingFrom : Rule Stmt := fun ts => do
  let rest := ts.dropWhile (fun
    | .op s => s == "." || s == "..."
    | _ => false)
  let (_, rest) ← if rest.length < ts.length && atWord "import" rest then some ((), rest)
    else dotted rest.length rest
  let (_, rest) ← word "import" rest
  let (_, rest) ← importedNames rest
  some (.foreign .importFrom, rest)

def declaring (kind : Foreign) : Rule Stmt := fun ts => do
  let ((_, trailing), rest) ← separated startsName plainName ts
  if trailing then none else some (.foreign kind, rest)

def simple (inner : Inner) : Rule Stmt
  | .name "pass" :: rest => some (.pass, rest)
  | .name "break" :: rest => some (.breakLoop, rest)
  | .name "continue" :: rest => some (.continueLoop, rest)
  | .name "return" :: rest => (optional (inner .starred) rest).map (fun (e, left) => (.giveBack e, left))
  | .name "raise" :: rest => raising inner rest
  | .name "assert" :: rest => asserting inner rest
  | .name "del" :: rest => deletion inner rest
  | .name "import" :: rest => importing rest
  | .name "from" :: rest => importingFrom rest
  | .name "global" :: rest => declaring .global rest
  | .name "nonlocal" :: rest => declaring .nonlocal rest
  | ts => assignment inner ts

/-- The simple statements of one line, with semicolons between them. -/
def line (inner : Inner) : (fuel : Nat) → Rule (List Stmt)
  | 0, _ => none
  | fuel + 1, ts => do
    let (first, rest) ← simple inner ts
    match rest with
    | .newline :: left => some ([first], left)
    | .op ";" :: .newline :: left => some ([first], left)
    | .op ";" :: left => (line inner fuel left).map (fun (more, left) => (first :: more, left))
    | _ => none

/-! Compound statements. -/

/-- A colon and the block after it. -/
def body (block : Rule (List Stmt)) : Rule (List Stmt) := fun ts => do
  let (_, rest) ← op ":" ts
  block rest

def otherwise (block : Rule (List Stmt)) : Rule (List Stmt) := fun ts =>
  match word "else" ts with
  | some (_, rest) => body block rest
  | none => some ([], ts)

def branches (inner : Inner) (block : Rule (List Stmt)) : (fuel : Nat) → Rule Stmt
  | 0, _ => none
  | fuel + 1, ts => do
    let (test, rest) ← inner .named ts
    let (yes, rest) ← body block rest
    match word "elif" rest with
    | some (_, more) =>
      let (no, left) ← branches inner block fuel more
      some (.branch test yes [no], left)
    | none =>
      let (no, left) ← otherwise block rest
      some (.branch test yes no, left)

def handler (inner : Inner) (block : Rule (List Stmt)) : Rule Handler := fun ts => do
  let (_, rest) ← word "except" ts
  if atOp ":" rest then
    let (stmts, rest) ← body block rest
    some (.mk none none stmts, rest)
  else
    let (type, rest) ← inner .expression rest
    let (name, rest) ← match word "as" rest with
      | some (_, more) => (identifier more).map (fun (s, left) => (some s, left))
      | none => some (none, rest)
    let (stmts, rest) ← body block rest
    some (.mk (some type) name stmts, rest)

def handlers (inner : Inner) (block : Rule (List Stmt)) : (fuel : Nat) → Rule (List Handler)
  | 0, _ => none
  | fuel + 1, ts =>
    if atWord "except" ts then do
      let (first, rest) ← handler inner block ts
      let (more, rest) ← handlers inner block fuel rest
      some (first :: more, rest)
    else some ([], ts)

def guarded (inner : Inner) (block : Rule (List Stmt)) : Rule Stmt := fun ts => do
  let (tried, rest) ← body block ts
  let (caught, rest) ← handlers inner block rest.length rest
  let (no, rest) ← if caught.isEmpty then some ([], rest) else otherwise block rest
  match word "finally" rest with
  | some (_, more) =>
    let (final, left) ← body block more
    some (.guarded tried caught no final, left)
  | none => if caught.isEmpty then none else some (.guarded tried caught no [], rest)

def definition (inner : Inner) (block : Rule (List Stmt)) (decorators : List Expr) : Rule Stmt :=
  fun ts => do
    let (name, rest) ← identifier ts
    let (_, rest) ← op "(" rest
    let (params, rest) ← signature inner true ")" (rest.length + 1) {} rest
    let (_, rest) ← op ")" rest
    let (result, rest) ← match op "->" rest with
      | some (_, more) => (inner .expression more).map (fun (e, left) => (some e, left))
      | none => some (none, rest)
    let (stmts, rest) ← body block rest
    some (.function name params stmts decorators result, rest)

def decorated (inner : Inner) (block : Rule (List Stmt)) : (fuel : Nat) → List Expr → Rule Stmt
  | 0, _, _ => none
  | fuel + 1, found, ts =>
    match op "@" ts with
    | some (_, rest) => do
      let (e, rest) ← inner .named rest
      match rest with
      | .newline :: more => decorated inner block fuel (found ++ [e]) more
      | _ => none
    | none => do
      let (_, rest) ← word "def" ts
      definition inner block found rest

def statement (inner : Inner) (block : Rule (List Stmt)) : Rule (List Stmt)
  | .name "if" :: rest => (branches inner block rest.length rest).map (fun (s, left) => ([s], left))
  | .name "while" :: rest => do
    let (test, rest) ← inner .named rest
    let (stmts, rest) ← body block rest
    let (no, rest) ← otherwise block rest
    some ([.whileLoop test stmts no], rest)
  | .name "for" :: rest => do
    let (target, rest) ← targets inner rest
    let (_, rest) ← word "in" rest
    let (source, rest) ← inner .starred rest
    let (stmts, rest) ← body block rest
    let (no, rest) ← otherwise block rest
    some ([.forLoop target source stmts no], rest)
  | .name "try" :: rest => (guarded inner block rest).map (fun (s, left) => ([s], left))
  | .name "def" :: rest => (definition inner block [] rest).map (fun (s, left) => ([s], left))
  | .op "@" :: rest =>
    (decorated inner block (rest.length + 1) [] (.op "@" :: rest)).map (fun (s, left) => ([s], left))
  | ts => line inner ts.length ts

/-- A block: an indented one on the lines that follow, or the rest of the line. -/
def blockAt (inner : Inner) : (fuel : Nat) → Rule (List Stmt)
  | 0, _ => none
  | fuel + 1, ts =>
    match ts with
    | .newline :: .indent :: rest => do
      let (groups, left) ← many (statement inner (blockAt inner fuel)) rest.length rest
      match left with
      | .dedent :: left => if groups.isEmpty then none else some (groups.flatten, left)
      | _ => none
    | ts => line inner ts.length ts

/-- Expressions with commas between them and nothing after. -/
def wholeExpression? (inner : Inner) (ts : List Token) : Option Expr := do
  let ((items, trailing), rest) ← separated startsExpr (inner .expression) ts
  if rest.all (· matches .newline) then
    match items, trailing with
    | [only], false => some only
    | _, _ => some (.tuple items)
  else none

def wholeBlock? (inner : Inner) (fuel : Nat) (ts : List Token) : Option (List Stmt) := do
  let (groups, rest) ← many (statement inner (blockAt inner fuel)) ts.length ts
  if rest.isEmpty then some groups.flatten else none

/-- A source read as an expression if it is one, as statements otherwise. -/
def program? (cs : List Char) : Option Program := do
  let tokens ← Token.ofSource? cs
  let fuel := 4 * cs.length + 8
  match wholeExpression? (exprAt fuel) tokens with
  | some e => some (.expression e)
  | none => (wholeBlock? (exprAt fuel) fuel tokens).map .block

end Workflow.Script.Parser
