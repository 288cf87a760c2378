import Workflow.Script.Term
import Workflow.Script.Token
import Workflow.Script.Escape

/-! From tokens to expressions. Every rule takes the rest of the tokens and gives what it read with
what is left. A rule that needs an expression inside itself asks for one at a level of the grammar,
and `exprAt` ties that knot by fuel. -/

namespace Workflow.Script.Parser

abbrev Rule (α : Type) := List Token → Option (α × List Token)

/-- The places of the grammar at which an expression is read inside another one. -/
inductive Level where
  /-- A conditional, a lambda or anything tighter. -/
  | expression
  /-- An expression that may bind a name with `:=`. -/
  | named
  /-- A list of expressions, some starred, which is a tuple if it has a comma. -/
  | starred
  /-- A `not` or a comparison. -/
  | inversion
  /-- Operands of `|` and tighter. -/
  | bitOr
  /-- A signed operand. -/
  | signed
  /-- A disjunction. -/
  | disjunction
  deriving DecidableEq

/-- The recursive reader handed to each rule. -/
abbrev Inner := Level → Rule Expr

def keywords : List String :=
  ["False", "None", "True", "and", "as", "assert", "async", "await", "break", "class", "continue",
   "def", "del", "elif", "else", "except", "finally", "for", "from", "global", "if", "import", "in",
   "is", "lambda", "nonlocal", "not", "or", "pass", "raise", "return", "try", "while", "with",
   "yield"]

def op (s : String) : Rule Unit
  | .op t :: rest => if t == s then some ((), rest) else none
  | _ => none

def word (s : String) : Rule Unit
  | .name t :: rest => if t == s then some ((), rest) else none
  | _ => none

def atOp (s : String) (ts : List Token) : Bool := (op s ts).isSome

def atWord (s : String) (ts : List Token) : Bool := (word s ts).isSome

/-- A name that is no keyword. -/
def identifier : Rule String
  | .name s :: rest => if keywords.contains s then none else some (s, rest)
  | _ => none

/-- Items read until one fails, as many as the fuel allows. -/
def many (rule : Rule α) : (fuel : Nat) → Rule (List α)
  | 0, ts => some ([], ts)
  | fuel + 1, ts =>
    match rule ts with
    | none => some ([], ts)
    | some (item, rest) => (many rule fuel rest).map (fun (items, left) => (item :: items, left))

/-- The items after a first one: each follows a comma and is tried only where `starts` allows it. The
flag tells of a last comma without an item. -/
def following (starts : List Token → Bool) (rule : Rule α) : (fuel : Nat) → Rule (List α × Bool)
  | 0, ts => some (([], false), ts)
  | fuel + 1, ts =>
    match op "," ts with
    | none => some (([], false), ts)
    | some (_, more) =>
      if starts more then do
        let (item, rest) ← rule more
        let ((items, trailing), left) ← following starts rule fuel rest
        some ((item :: items, trailing), left)
      else some (([], true), more)

/-- One item or more, with commas between them. -/
def separated (starts : List Token → Bool) (rule : Rule α) : Rule (List α × Bool) := fun ts => do
  let (item, rest) ← rule ts
  let ((items, trailing), left) ← following starts rule rest.length rest
  some ((item :: items, trailing), left)

/-- Whether an expression can begin here. -/
def startsExpr : List Token → Bool
  | .name s :: _ =>
    !keywords.contains s ||
      ["False", "None", "True", "await", "lambda", "not", "yield"].contains s
  | .int _ :: _ => true
  | .float _ :: _ => true
  | .text _ _ :: _ => true
  | .op s :: _ => ["(", "[", "\x7b", "+", "-", "~", "...", "*"].contains s
  | _ => false

/-! Operators. -/

def comparison? : Rule Comparison
  | .op "==" :: rest => some (.equal, rest)
  | .op "!=" :: rest => some (.notEqual, rest)
  | .op "<" :: rest => some (.less, rest)
  | .op "<=" :: rest => some (.lessEqual, rest)
  | .op ">" :: rest => some (.greater, rest)
  | .op ">=" :: rest => some (.greaterEqual, rest)
  | .name "is" :: .name "not" :: rest => some (.notSame, rest)
  | .name "is" :: rest => some (.same, rest)
  | .name "not" :: .name "in" :: rest => some (.notMember, rest)
  | .name "in" :: rest => some (.member, rest)
  | _ => none

/-- Binary operators by how tightly they bind, the loosest first. -/
def binaryLevels : List (List (String × BinaryOp)) :=
  [[("|", .bitOr)], [("^", .bitXor)], [("&", .bitAnd)], [("<<", .shiftLeft), (">>", .shiftRight)],
   [("+", .add), ("-", .sub)],
   [("*", .mul), ("/", .div), ("//", .floorDiv), ("%", .mod), ("@", .matMul)]]

def binaryOp? (level : List (String × BinaryOp)) : Rule BinaryOp
  | .op s :: rest => (level.find? (·.1 == s)).map (fun (_, o) => (o, rest))
  | _ => none

def augmentOps : List (String × BinaryOp) :=
  [("+=", .add), ("-=", .sub), ("*=", .mul), ("/=", .div), ("//=", .floorDiv), ("%=", .mod),
   ("**=", .pow), ("<<=", .shiftLeft), (">>=", .shiftRight), ("&=", .bitAnd), ("|=", .bitOr),
   ("^=", .bitXor), ("@=", .matMul)]

/-- Operands and operators of one level, grouped to the left. -/
def leftGrouped (level : List (String × BinaryOp)) (operand : Rule Expr) :
    (fuel : Nat) → Expr → Rule Expr
  | 0, left, ts => some (left, ts)
  | fuel + 1, left, ts =>
    match binaryOp? level ts with
    | none => some (left, ts)
    | some (o, rest) => do
      let (right, rest) ← operand rest
      leftGrouped level operand fuel (.binary o left right) rest

def binaryFrom (operand : Rule Expr) : List (List (String × BinaryOp)) → Rule Expr
  | [], ts => operand ts
  | level :: tighter, ts => do
    let (left, rest) ← binaryFrom operand tighter ts
    leftGrouped level (binaryFrom operand tighter) rest.length left rest

/-! Targets of assignments and loops. -/

mutual

/-- Whether an expression may be assigned to. -/
def isTarget : Expr → Bool
  | .name _ => true
  | .attribute _ _ => true
  | .subscript _ _ => true
  | .tuple items => areTargets items
  | .list items => areTargets items
  | _ => false

def areTargets : List Expr → Bool
  | [] => true
  | item :: rest => isElementTarget item && areTargets rest

def isElementTarget : Expr → Bool
  | .starred item => isTarget item
  | .name _ => true
  | .attribute _ _ => true
  | .subscript _ _ => true
  | .tuple items => areTargets items
  | .list items => areTargets items
  | _ => false

end

mutual

def isDeletable : Expr → Bool
  | .name _ => true
  | .attribute _ _ => true
  | .subscript _ _ => true
  | .tuple items => areDeletable items
  | .list items => areDeletable items
  | _ => false

def areDeletable : List Expr → Bool
  | [] => true
  | item :: rest => isDeletable item && areDeletable rest

end

def isSingleTarget : Expr → Bool
  | .name _ => true
  | .attribute _ _ => true
  | .subscript _ _ => true
  | _ => false

/-- Loop targets: operands of `|` with commas between them, some of them starred. -/
def targets (inner : Inner) : Rule Expr := fun ts => do
  let item : Rule Expr := fun ts =>
    match op "*" ts with
    | some (_, rest) => (inner .bitOr rest).map (fun (e, left) => (.starred e, left))
    | none => inner .bitOr ts
  let ((items, trailing), rest) ← separated startsExpr item ts
  match items, trailing with
  | [only], false => if isElementTarget only then some (only, rest) else none
  | _, _ => if areTargets items then some (.tuple items, rest) else none

/-! Comprehensions and calls. -/

def condition (inner : Inner) : Rule Expr := fun ts => do
  let (_, rest) ← word "if" ts
  inner .disjunction rest

def clause (inner : Inner) : Rule Clause := fun ts => do
  let (_, rest) ← word "for" ts
  let (target, rest) ← targets inner rest
  let (_, rest) ← word "in" rest
  let (source, rest) ← inner .disjunction rest
  let (conditions, rest) ← many (condition inner) rest.length rest
  some (.mk target source conditions, rest)

/-- One clause or more. A clause that begins and fails makes the whole fail. -/
def clauses (inner : Inner) : (fuel : Nat) → Rule (List Clause)
  | 0, _ => none
  | fuel + 1, ts => do
    let (first, rest) ← clause inner ts
    if atWord "for" rest then
      let (more, left) ← clauses inner fuel rest
      some (first :: more, left)
    else some ([first], rest)

inductive Argument where
  | positional (e : Expr)
  | keyword (k : Keyword)

def argument (inner : Inner) : Rule Argument
  | .name s :: .op "=" :: rest =>
    if keywords.contains s then none
    else (inner .expression rest).map (fun (e, left) => (.keyword (.mk (some s) e), left))
  | .op "**" :: rest => (inner .expression rest).map (fun (e, left) => (.keyword (.mk none e), left))
  | .op "*" :: rest => (inner .expression rest).map (fun (e, left) => (.positional (.starred e), left))
  | ts => (inner .named ts).map (fun (e, left) => (.positional e, left))

def startsArgument (ts : List Token) : Bool := startsExpr ts || atOp "**" ts

/-- Plain arguments come before named ones, and only an unpacked sequence may follow a named one. -/
def inOrder : (named unpacked : Bool) → List Argument → Bool
  | _, _, [] => true
  | named, unpacked, .positional (.starred _) :: rest => !unpacked && inOrder named unpacked rest
  | named, unpacked, .positional _ :: rest => !named && !unpacked && inOrder named unpacked rest
  | _, unpacked, .keyword (.mk (some _) _) :: rest => inOrder true unpacked rest
  | _, _, .keyword (.mk none _) :: rest => inOrder true true rest

/-- The arguments of a call after its opening parenthesis. -/
def arguments (inner : Inner) (function : Expr) : Rule Expr := fun ts =>
  match op ")" ts with
  | some (_, rest) => some (.call function [] [], rest)
  | none => do
    let (first, rest) ← argument inner ts
    match first, atWord "for" rest with
    | .positional element, true =>
      if element matches .starred _ then none
      else
        let (loops, rest) ← clauses inner rest.length rest
        let (_, rest) ← op ")" rest
        some (.call function [.comprehension .generator element none loops] [], rest)
    | _, _ =>
      let ((more, _), rest) ← following startsArgument (argument inner) rest.length rest
      let (_, rest) ← op ")" rest
      let args := first :: more
      if inOrder false false args then
        some (.call function
          (args.filterMap (fun
            | .positional e => some e
            | .keyword _ => none))
          (args.filterMap (fun
            | .positional _ => none
            | .keyword k => some k)), rest)
      else none

/-! Subscripts. -/

def optionalExpr (inner : Inner) (ts : List Token) : Option (Option Expr × List Token) :=
  if startsExpr ts then (inner .expression ts).map (fun (e, left) => (some e, left))
  else some (none, ts)

def indexItem (inner : Inner) : Rule Expr := fun ts =>
  match op "*" ts with
  | some (_, rest) => (inner .bitOr rest).map (fun (e, left) => (.starred e, left))
  | none => do
    let (lower, rest) ← if atOp ":" ts then some (none, ts)
      else (inner .named ts).map (fun (e, left) => (some e, left))
    match op ":" rest, lower with
    | none, some e => some (e, rest)
    | none, none => none
    | some (_, rest), _ =>
      let (upper, rest) ← optionalExpr inner rest
      match op ":" rest with
      | none => some (.slice lower upper none, rest)
      | some (_, rest) =>
        let (step, rest) ← optionalExpr inner rest
        some (.slice lower upper step, rest)

def index (inner : Inner) : Rule Expr := fun ts => do
  let ((items, trailing), rest) ←
    separated (fun ts => startsExpr ts || atOp ":" ts) (indexItem inner) ts
  match items, trailing with
  | [.starred e], _ => some (.tuple [.starred e], rest)
  | [only], false => some (only, rest)
  | _, _ => some (.tuple items, rest)

/-! Parameters. -/

/-- What has been read of a parameter list. -/
structure Signature where
  positionalOnly : List Param := []
  positional : List Param := []
  rest : Option Param := none
  keywordOnly : List Param := []
  keywordDefaults : List (Option Expr) := []
  keywordRest : Option Param := none
  defaults : List Expr := []
  /-- A star has been read; the parameters after it are given by keyword. -/
  starred : Bool := false
  bareStar : Bool := false
  slashed : Bool := false

def Signature.params (s : Signature) : Params :=
  .mk s.positionalOnly s.positional s.rest s.keywordOnly s.keywordDefaults s.keywordRest s.defaults

def param (inner : Inner) (annotated : Bool) : Rule Param := fun ts => do
  let (name, rest) ← identifier ts
  match if annotated then op ":" rest else none with
  | none => some (.mk name none, rest)
  | some (_, rest) =>
    let (hint, rest) ← inner .expression rest
    some (.mk name (some hint), rest)

/-- One entry of a parameter list added to what has been read. -/
def signatureStep (inner : Inner) (annotated : Bool) (s : Signature) : Rule Signature := fun ts =>
  if s.keywordRest.isSome then none
  else match ts with
    | .op "/" :: rest =>
      if s.slashed || s.starred || s.positional.isEmpty then none
      else some ({ s with positionalOnly := s.positional, positional := [], slashed := true }, rest)
    | .op "**" :: rest =>
      if s.bareStar && s.keywordOnly.isEmpty then none
      else (param inner annotated rest).map (fun (p, left) => ({ s with keywordRest := some p }, left))
    | .op "*" :: rest =>
      if s.starred then none
      else match rest with
        | .op "," :: _ => some ({ s with starred := true, bareStar := true }, rest)
        | _ => (param inner annotated rest).map
            (fun (p, left) => ({ s with starred := true, rest := some p }, left))
    | _ => do
      let (p, rest) ← param inner annotated ts
      let (value, rest) ← match op "=" rest with
        | some (_, more) => (inner .expression more).map (fun (e, left) => (some e, left))
        | none => some (none, rest)
      if s.starred then
        some ({ s with keywordOnly := s.keywordOnly ++ [p],
                       keywordDefaults := s.keywordDefaults ++ [value] }, rest)
      else match value with
        | some e => some ({ s with positional := s.positional ++ [p], defaults := s.defaults ++ [e] }, rest)
        | none =>
          if s.defaults.isEmpty then some ({ s with positional := s.positional ++ [p] }, rest) else none

/-- A parameter list up to the token that closes it. -/
def signature (inner : Inner) (annotated : Bool) (close : String) :
    (fuel : Nat) → Signature → Rule Params
  | 0, _, _ => none
  | fuel + 1, s, ts =>
    if atOp close ts then
      if s.bareStar && s.keywordOnly.isEmpty then none else some (s.params, ts)
    else do
      let (s, rest) ← signatureStep inner annotated s ts
      match op "," rest with
      | some (_, more) => signature inner annotated close fuel s more
      | none =>
        if atOp close rest && !(s.bareStar && s.keywordOnly.isEmpty) then some (s.params, rest) else none

/-! Formatted texts. -/

/-- The source of a replacement field up to the character that ends it. Quotes and brackets shield
what is inside them; backslashes and comments are refused. -/
def fieldSource : (fuel : Nat) → (nest : List Char) → (quote : Option (Char × Bool)) → List Char →
    Option (List Char × List Char)
  | 0, _, _, _ => none
  | _, _, _, [] => none
  | fuel + 1, nest, some (mark, triple), c :: rest =>
    if c == '\\' then none
    else if c == mark && !triple then (fieldSource fuel nest none rest).map (keep [c])
    else if c == mark && rest.take 2 == [mark, mark] then
      (fieldSource fuel nest none (rest.drop 2)).map (keep [c, c, c])
    else (fieldSource fuel nest (some (mark, triple)) rest).map (keep [c])
  | fuel + 1, nest, none, c :: rest =>
    if c == '\\' || c == '#' then none
    else if c == '\'' || c == '"' then
      if rest.take 2 == [c, c] then
        (fieldSource fuel nest (some (c, true)) (rest.drop 2)).map (keep [c, c, c])
      else (fieldSource fuel nest (some (c, false)) rest).map (keep [c])
    else if c == '(' || c == '[' || c == '\x7b' then (fieldSource fuel (c :: nest) none rest).map (keep [c])
    else if nest.isEmpty && (c == '!' || c == '=' || c == '<' || c == '>') && rest.head? == some '=' then
      (fieldSource fuel nest none (rest.drop 1)).map (keep [c, '='])
    else if nest.isEmpty && (c == '!' || c == ':' || c == '\x7d' || c == '=') then some ([], c :: rest)
    else if c == ')' || c == ']' || c == '\x7d' then
      match nest with
      | opened :: outer =>
        if (opened == '(' && c == ')') || (opened == '[' && c == ']') || (opened == '\x7b' && c == '\x7d') then
          (fieldSource fuel outer none rest).map (keep [c])
        else none
      | [] => none
    else (fieldSource fuel nest none rest).map (keep [c])
where
  keep (cs : List Char) (found : List Char × List Char) : List Char × List Char :=
    (cs ++ found.1, found.2)

/-- The literal start of a formatted text. Doubled braces stand for one, except in a nested
specification, which ends at a brace. -/
def literalRun (nested : Bool) : List Char → List Char × List Char
  | [] => ([], [])
  | c :: rest =>
    if c == '\x7b' then
      match rest with
      | '\x7b' :: more => if nested then ([], c :: rest) else grow '\x7b' (literalRun nested more)
      | _ => ([], c :: rest)
    else if c == '\x7d' then
      match rest with
      | '\x7d' :: more => if nested then ([], c :: rest) else grow '\x7d' (literalRun nested more)
      | _ => ([], c :: rest)
    else grow c (literalRun nested rest)
where
  grow (c : Char) (found : List Char × List Char) : List Char × List Char := (c :: found.1, found.2)

def conversionOf? (c : Char) : Option Conversion :=
  if c == 's' then some .text else if c == 'r' then some .quoted else if c == 'a' then some .ascii
  else none

def joinText (s : String) (pieces : List Piece) : List Piece :=
  if s.isEmpty then pieces
  else match pieces with
    | .text t :: rest => .text (s ++ t) :: rest
    | rest => .text s :: rest

/-- A source inside a formatted text, read as if in parentheses. -/
def embedded (inner : Inner) (source : List Char) : Option Expr := do
  if (Text.trim Text.isBlank source).isEmpty then none
  else
    let tokens ← Token.ofSource? ('(' :: source ++ [')'])
    let (_, rest) ← op "(" tokens
    let (e, rest) ← inner .starred rest
    let (_, rest) ← op ")" rest
    if rest matches [.newline] then some e else none

/-- The pieces of a formatted text. `depth` is how many specifications enclose it. -/
def pieces (inner : Inner) (raw : Bool) : (fuel depth : Nat) → List Char →
    Option (List Piece × List Char)
  | 0, _, _ => none
  | fuel + 1, depth, cs => do
    let (plain, rest) := literalRun (depth > 0) cs
    let start ← Escape.text? raw plain
    match rest with
    | [] => if depth > 0 then none else some (joinText start [], [])
    | '\x7b' :: rest =>
      if depth > 1 then none
      else
        let (source, rest) ← fieldSource (rest.length + 1) [] none rest
        let value ← embedded inner source
        let (shown, rest) := match rest with
          | '=' :: more =>
            let blanks := more.takeWhile Text.isBlank
            (some (String.ofList (source ++ '=' :: blanks)), more.drop blanks.length)
          | _ => (none, rest)
        let (conversion, rest) ← match rest with
          | '!' :: c :: more => (conversionOf? c).map (fun k => (some k, more))
          | '!' :: [] => none
          | _ => some (none, rest)
        let (spec, rest) ← match rest with
          | ':' :: more => (pieces inner raw fuel (depth + 1) more).map (fun (p, left) => (some p, left))
          | _ => some (none, rest)
        let conversion :=
          if shown.isSome && conversion.isNone && spec.isNone then some .quoted else conversion
        match rest with
        | '\x7d' :: more =>
          let (later, left) ← pieces inner raw fuel depth more
          some (joinText (start ++ shown.getD "") (.field value conversion (spec.getD []) :: later), left)
        | _ => none
    | _ => if depth > 0 then some (joinText start [], rest) else none

/-- The pieces of adjacent text literals, joined. -/
def textPieces (inner : Inner) : List (TextMarks × List Char) → Option (List Piece)
  | [] => some []
  | (marks, body) :: rest => do
    let later ← textPieces inner rest
    if marks.formatted then
      let (here, _) ← pieces inner marks.raw (body.length + 2) 0 body
      some (here.foldr (fun
        | .text s, acc => joinText s acc
        | piece, acc => piece :: acc) later)
    else
      let s ← Escape.text? marks.raw body
      some (joinText s later)

def textTokens : List Token → List (TextMarks × List Char) × List Token
  | .text marks body :: rest =>
    let (more, left) := textTokens rest
    ((marks, body) :: more, left)
  | rest => ([], rest)

def textAtom (inner : Inner) : Rule Expr := fun ts => do
  let (parts, rest) := textTokens ts
  let found ← textPieces inner parts
  if parts.any (·.1.formatted) then some (.formatted found, rest)
  else match found with
    | [] => some (.literal (.text ""), rest)
    | [.text s] => some (.literal (.text s), rest)
    | _ => none

/-! Displays. -/

def yieldExpr (inner : Inner) : Rule Expr := fun ts => do
  let (_, rest) ← word "yield" ts
  match word "from" rest with
  | some (_, more) => (inner .expression more).map (fun (e, left) => (.yieldFrom e, left))
  | none =>
    if startsExpr rest then (inner .starred rest).map (fun (e, left) => (.yield (some e), left))
    else some (.yield none, rest)

/-- An element of a display: an expression, a named one, or a starred operand. -/
def element (inner : Inner) : Rule Expr := fun ts =>
  match op "*" ts with
  | some (_, rest) => (inner .bitOr rest).map (fun (e, left) => (.starred e, left))
  | none => inner .named ts

def parenthesised (inner : Inner) : Rule Expr := fun ts =>
  if atOp ")" ts then (op ")" ts).map (fun (_, rest) => (.tuple [], rest))
  else if atWord "yield" ts then do
    let (e, rest) ← yieldExpr inner ts
    let (_, rest) ← op ")" rest
    some (e, rest)
  else do
    let (first, rest) ← element inner ts
    if atWord "for" rest then
      if first matches .starred _ then none
      else
        let (loops, rest) ← clauses inner rest.length rest
        let (_, rest) ← op ")" rest
        some (.comprehension .generator first none loops, rest)
    else
      let ((more, trailing), rest) ← following startsExpr (element inner) rest.length rest
      let (_, rest) ← op ")" rest
      match first, more, trailing with
      | .starred _, [], false => none
      | only, [], false => some (only, rest)
      | _, _, _ => some (.tuple (first :: more), rest)

def bracketed (inner : Inner) : Rule Expr := fun ts =>
  match op "]" ts with
  | some (_, rest) => some (.list [], rest)
  | none => do
    let (first, rest) ← element inner ts
    if atWord "for" rest then
      if first matches .starred _ then none
      else
        let (loops, rest) ← clauses inner rest.length rest
        let (_, rest) ← op "]" rest
        some (.comprehension .list first none loops, rest)
    else
      let ((more, _), rest) ← following startsExpr (element inner) rest.length rest
      let (_, rest) ← op "]" rest
      some (.list (first :: more), rest)

def entry (inner : Inner) : Rule Entry := fun ts =>
  match op "**" ts with
  | some (_, rest) => (inner .bitOr rest).map (fun (e, left) => (.mk none e, left))
  | none => do
    let (key, rest) ← inner .expression ts
    let (_, rest) ← op ":" rest
    let (value, rest) ← inner .expression rest
    some (.mk (some key) value, rest)

/-- The entries of a dictionary display after the first one. -/
def entries (inner : Inner) (first : Entry) : Rule Expr := fun ts => do
  let ((more, _), rest) ←
    following (fun ts => startsExpr ts || atOp "**" ts) (entry inner) ts.length ts
  let (_, rest) ← op "\x7d" rest
  some (.dict (first :: more), rest)

/-- Whether a display begins with a name that is bound without parentheses. -/
def bindsFirst : List Token → Bool
  | .name _ :: .op ":=" :: _ => true
  | _ => false

/-- A dictionary or a set, told apart by the colon after the first expression. -/
def braced (inner : Inner) : Rule Expr := fun ts =>
  if atOp "\x7d" ts then (op "\x7d" ts).map (fun (_, rest) => (.dict [], rest))
  else if atOp "**" ts then do
    let (first, rest) ← entry inner ts
    entries inner first rest
  else do
    let (first, rest) ← element inner ts
    if atOp ":" rest then
      if (first matches .starred _) || bindsFirst ts then none
      else
        let (_, rest) ← op ":" rest
        let (value, rest) ← inner .expression rest
        if atWord "for" rest then
          let (loops, rest) ← clauses inner rest.length rest
          let (_, rest) ← op "\x7d" rest
          some (.comprehension .dict first (some value) loops, rest)
        else entries inner (.mk (some first) value) rest
    else if atWord "for" rest then
      if first matches .starred _ then none
      else
        let (loops, rest) ← clauses inner rest.length rest
        let (_, rest) ← op "\x7d" rest
        some (.comprehension .set first none loops, rest)
    else
      let ((more, _), rest) ← following startsExpr (element inner) rest.length rest
      let (_, rest) ← op "\x7d" rest
      some (.set (first :: more), rest)

/-! Operands. -/

def atom (inner : Inner) : Rule Expr
  | .int n :: rest => some (.literal (.int n), rest)
  | .float x :: rest => some (.literal (.float x), rest)
  | .text marks body :: rest => textAtom inner (.text marks body :: rest)
  | .name "True" :: rest => some (.literal (.bool true), rest)
  | .name "False" :: rest => some (.literal (.bool false), rest)
  | .name "None" :: rest => some (.literal .none, rest)
  | .op "..." :: rest => some (.literal .ellipsis, rest)
  | .op "(" :: rest => parenthesised inner rest
  | .op "[" :: rest => bracketed inner rest
  | .op "\x7b" :: rest => braced inner rest
  | ts => (identifier ts).map (fun (s, rest) => (.name s, rest))

/-- Attributes, calls and subscripts after an operand. -/
def trailers (inner : Inner) : (fuel : Nat) → Expr → Rule Expr
  | 0, e, ts => some (e, ts)
  | fuel + 1, e, ts =>
    match ts with
    | .op "." :: rest => do
      let (name, rest) ← identifier rest
      trailers inner fuel (.attribute e name) rest
    | .op "(" :: rest => do
      let (e, rest) ← arguments inner e rest
      trailers inner fuel e rest
    | .op "[" :: rest => do
      let (i, rest) ← index inner rest
      let (_, rest) ← op "]" rest
      trailers inner fuel (.subscript e i) rest
    | _ => some (e, ts)

def primary (inner : Inner) : Rule Expr := fun ts => do
  let (e, rest) ← atom inner ts
  trailers inner rest.length e rest

def awaited (inner : Inner) : Rule Expr := fun ts =>
  match word "await" ts with
  | some (_, rest) => (primary inner rest).map (fun (e, left) => (.await e, left))
  | none => primary inner ts

/-- A power binds tighter than a sign on its left and looser than one on its right. -/
def power (inner : Inner) : Rule Expr := fun ts => do
  let (base, rest) ← awaited inner ts
  match op "**" rest with
  | none => some (base, rest)
  | some (_, rest) =>
    let (exponent, rest) ← inner .signed rest
    some (.binary .pow base exponent, rest)

def signed (inner : Inner) : Rule Expr
  | .op "+" :: rest => (inner .signed rest).map (fun (e, left) => (.unary .plus e, left))
  | .op "-" :: rest => (inner .signed rest).map (fun (e, left) => (.unary .minus e, left))
  | .op "~" :: rest => (inner .signed rest).map (fun (e, left) => (.unary .invert e, left))
  | ts => power inner ts

def bitOr (inner : Inner) : Rule Expr := binaryFrom (signed inner) binaryLevels

def comparisons (inner : Inner) : (fuel : Nat) → Rule (List (Comparison × Expr))
  | 0, ts => some ([], ts)
  | fuel + 1, ts =>
    match comparison? ts with
    | none => some ([], ts)
    | some (c, rest) => do
      let (right, rest) ← bitOr inner rest
      let (more, rest) ← comparisons inner fuel rest
      some ((c, right) :: more, rest)

def inversion (inner : Inner) : Rule Expr := fun ts =>
  match word "not" ts with
  | some (_, rest) => (inner .inversion rest).map (fun (e, left) => (.unary .not e, left))
  | none => do
    let (left, rest) ← bitOr inner ts
    let (more, rest) ← comparisons inner rest.length rest
    some (if more.isEmpty then left else .compare left more, rest)

/-- Operands joined by a word, as one junction. -/
def joined (separator : String) (connective : Connective) (operand : Rule Expr) : Rule Expr := fun ts => do
  let (first, rest) ← operand ts
  if atWord separator rest then
    let (more, rest) ← others rest.length rest
    some (.junction connective (first :: more), rest)
  else some (first, rest)
where
  others : (fuel : Nat) → Rule (List Expr)
    | 0, ts => some ([], ts)
    | fuel + 1, ts =>
      match word separator ts with
      | none => some ([], ts)
      | some (_, rest) => do
        let (e, rest) ← operand rest
        let (more, rest) ← others fuel rest
        some (e :: more, rest)

def disjunction (inner : Inner) : Rule Expr :=
  joined "or" .or (joined "and" .and (inversion inner))

def expression (inner : Inner) : Rule Expr := fun ts =>
  match word "lambda" ts with
  | some (_, rest) => do
    let (params, rest) ← signature inner false ":" (rest.length + 1) {} rest
    let (_, rest) ← op ":" rest
    let (body, rest) ← inner .expression rest
    some (.lambda params body, rest)
  | none => do
    let (body, rest) ← disjunction inner ts
    match word "if" rest with
    | none => some (body, rest)
    | some (_, rest) =>
      let (test, rest) ← disjunction inner rest
      let (_, rest) ← word "else" rest
      let (orelse, rest) ← inner .expression rest
      some (.conditional test body orelse, rest)

def namedExpr (inner : Inner) : Rule Expr
  | .name s :: .op ":=" :: rest =>
    if keywords.contains s then none
    else (inner .expression rest).map (fun (e, left) => (.named s e, left))
  | ts => do
    let (e, rest) ← expression inner ts
    if atOp ":=" rest then none else some (e, rest)

/-- A list of expressions, some starred; with a comma it is a tuple. -/
def starredList (inner : Inner) : Rule Expr := fun ts => do
  let item : Rule Expr := fun ts =>
    match op "*" ts with
    | some (_, rest) => (inner .bitOr rest).map (fun (e, left) => (.starred e, left))
    | none => inner .expression ts
  let ((items, trailing), rest) ← separated startsExpr item ts
  match items, trailing with
  | [only], false => some (only, rest)
  | _, _ => some (.tuple items, rest)

/-- The expression at a level. Each level of nesting spends one unit of fuel. -/
def exprAt : (fuel : Nat) → Level → Rule Expr
  | 0, _ => fun _ => none
  | fuel + 1, .expression => expression (exprAt fuel)
  | fuel + 1, .named => namedExpr (exprAt fuel)
  | fuel + 1, .starred => starredList (exprAt fuel)
  | fuel + 1, .inversion => inversion (exprAt fuel)
  | fuel + 1, .bitOr => bitOr (exprAt fuel)
  | fuel + 1, .signed => signed (exprAt fuel)
  | fuel + 1, .disjunction => disjunction (exprAt fuel)

end Workflow.Script.Parser
