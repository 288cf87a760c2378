import Workflow.Script.Builtins
import Workflow.Script.Call
import Workflow.Script.Comprehension
import Workflow.Script.Compile

/-! Evaluation of expressions and statements, one level deep: whatever lies inside is left to the
machine. -/

namespace Workflow.Script

def literalValue : Literal → Value
  | .none => .nothing
  | .ellipsis => .ellipsis
  | .bool b => .bool b
  | .int n => .int n
  | .float x => .float x
  | .text s => .str s

/-- Values of a row of expressions. A starred one gives all its items, and `refuse` tells what happens
when it has none. -/
def evalRow (m : Machine) (scope : Addr) (refuse : Value → Act Addr) :
    List Expr → Act (List Value)
  | [] => return []
  | .starred item :: rest => do
    let v ← m.eval scope item
    let a ← match ← Act.iterate? v with
      | some a => pure a
      | none => refuse v
    let items ← drain m a
    return items.toList ++ (← evalRow m scope refuse rest)
  | e :: rest => do
    let v ← m.eval scope e
    return v :: (← evalRow m scope refuse rest)

def refuseInRow (v : Value) : Act Addr := do
  Act.typeError s!"Value after * must be an iterable, not {← Act.typeName v}"

/-- Refuses keys that are none, and then puts the entries in. -/
def insertEntries (found : Entries) : List (Value × Value) → Act Entries
  | [] => return found
  | (key, v) :: rest => do
    Act.checkKey key
    insertEntries (Entries.insert found key v) rest

/-- The entries of a dictionary display. Keys and values in a row are all evaluated before they are
put in; `waiting` holds them, the last one first. -/
def evalEntries (m : Machine) (scope : Addr) (found : Entries) (waiting : List (Value × Value)) :
    List Entry → Act Entries
  | [] => insertEntries found waiting.reverse
  | .mk (some key) value :: rest => do
    let k ← m.eval scope key
    let v ← m.eval scope value
    evalEntries m scope found ((k, v) :: waiting) rest
  | .mk none value :: rest => do
    let found ← insertEntries found waiting.reverse
    let v ← m.eval scope value
    let more ← match v with
      | .ref a =>
        match ← Act.object a with
        | .dict entries => pure entries
        | _ => Act.typeError s!"'{← Act.typeName v}' object is not a mapping"
      | v => Act.typeError s!"'{← Act.typeName v}' object is not a mapping"
    evalEntries m scope (Entries.insertAll found more) [] rest

/-- How a called value is named when its arguments are refused. -/
def calledText (f : Value) : Act String := do
  match f.calledName? (← get) with
  | some name => return name ++ "()"
  | none => Act.quoted f

/-- Keyword arguments in the order in which they are written. -/
def evalKeywords (m : Machine) (scope : Addr) (f : Value) (found : List (String × Value)) :
    List Keyword → Act (List (String × Value))
  | [] => return found
  | .mk (some name) value :: rest => do
    let v ← m.eval scope value
    evalKeywords m scope f (← addAll f found [(.str name, v)]) rest
  | .mk none value :: rest => do
    let v ← m.eval scope value
    let entries ← match v with
      | .ref a =>
        match ← Act.object a with
        | .dict entries => pure entries
        | _ => refuse f v
      | v => refuse f v
    evalKeywords m scope f (← addAll f found entries.toList) rest
where
  refuse (f v : Value) : Act Entries := do
    Act.typeError
      s!"{← calledText f} argument after ** must be a mapping, not {← Act.typeName v}"
  addAll (f : Value) (found : List (String × Value)) :
      List (Value × Value) → Act (List (String × Value))
    | [] => return found
    | (.str name, v) :: rest => do
      if found.any (·.1 == name) then
        Act.typeError
          s!"{← calledText f} got multiple values for keyword argument '{name}'"
      addAll f (found ++ [(name, v)]) rest
    | _ :: _ => Act.typeError "keywords must be strings"

def evalOption (m : Machine) (scope : Addr) : Option Expr → Act Value
  | none => return .nothing
  | some e => m.eval scope e

/-- A chain of comparisons, which ends with the first one that fails. -/
def evalChain (m : Machine) (scope : Addr) (left : Value) :
    List (Comparison × Expr) → Act Value
  | [] => return .bool true
  | [(c, e)] => do return .bool (← Act.compare m c left (← m.eval scope e))
  | (c, e) :: rest => do
    let right ← m.eval scope e
    if ← Act.compare m c left right then evalChain m scope right rest else return .bool false

/-- The first operand that decides a junction, or the last one. -/
def evalJunction (m : Machine) (scope : Addr) (op : Connective) : List Expr → Act Value
  | [] => return .nothing
  | [e] => m.eval scope e
  | e :: rest => do
    let v ← m.eval scope e
    if (← Act.truth v) == (op == .or) then return v else evalJunction m scope op rest

def convertPiece (v : Value) : Option Conversion → Act Value
  | none => return v
  | some .text => Template.convert v (some 's')
  | some .quoted => Template.convert v (some 'r')
  | some .ascii => Template.convert v (some 'a')

/-- The text of a formatted literal, whose specifications nest to a depth. -/
def evalPieces (m : Machine) (scope : Addr) : (depth : Nat) → List Piece → Act String
  | 0, _ => throw .exhausted
  | depth + 1, pieces => do return "".intercalate (← row depth pieces)
where
  row (depth : Nat) : List Piece → Act (List String)
    | [] => return []
    | .text s :: rest => do return s :: (← row depth rest)
    | .field value conversion spec :: rest => do
      let v ← convertPiece (← m.eval scope value) conversion
      let spec ← evalPieces m scope depth spec
      let shown ← layoutValue v spec
      return shown :: (← row depth rest)

/-- Specifications of formatted literals nest no deeper than this. -/
def pieceDepth : Nat := 4

/-- A function object with the values of its defaults. -/
def makeFunction (m : Machine) (scope : Addr) (name : String) (params : Params) (body : Body) :
    Act Value := do
  let defaults ← params.defaults.mapM (m.eval scope)
  let keywordDefaults ← params.keywordDefaults.mapM (fun e => match e with
    | none => pure none
    | some e => some <$> m.eval scope e)
  Act.allocate (.function { name, params, defaults, keywordDefaults, body, scope })

def evalWith (m : Machine) (scope : Addr) (e : Expr) : Act Value := do
  match e with
  | .literal value => return literalValue value
  | .name id => Act.lookup scope id
  | .formatted pieces => Value.str <$> evalPieces m scope pieceDepth pieces
  | .tuple items => Value.tuple <$> evalRow m scope refuseInRow items
  | .list items => do Act.newList (← evalRow m scope refuseInRow items).toArray
  | .set items => do
    let values ← evalRow m scope
      (fun v => do Act.typeError s!"'{← Act.typeName v}' object is not iterable") items
    Act.newSet (← insertMembers #[] values)
  | .dict entries => do Act.newDict (← evalEntries m scope #[] [] entries)
  | .starred _ => Act.fail .grammar "cannot use starred expression here"
  | .unary op operand => do unary op (← m.eval scope operand)
  | .binary op left right => do
    let v ← m.eval scope left
    Act.binary op v (← m.eval scope right)
  | .junction op items => evalJunction m scope op items
  | .compare left rest => do evalChain m scope (← m.eval scope left) rest
  | .conditional test body orelse => do
    if ← Act.truth (← m.eval scope test) then m.eval scope body else m.eval scope orelse
  | .named target value => do
    let v ← m.eval scope value
    Act.bindName scope target v
    return v
  | .lambda params body => makeFunction m scope "<lambda>" params (.expression body)
  | .comprehension kind elt value clauses => comprehend m scope kind elt value clauses
  | .attribute object name => do m.access.read (← m.eval scope object) name
  | .subscript object index => do
    let v ← m.eval scope object
    Act.subscript v (← m.eval scope index)
  | .slice lower upper step => do
    let lower ← evalOption m scope lower
    let upper ← evalOption m scope upper
    return .slice lower upper (← evalOption m scope step)
  | .call function args keywords => do
    let f ← m.eval scope function
    let refuse := fun v => do
      Act.typeError
        s!"{← calledText f} argument after * must be an iterable, not {← Act.typeName v}"
    let values ← evalRow m scope (if args.length == 1 then refuse else refuseInRow) args
    m.call f values (← evalKeywords m scope f [] keywords)
  | .yield _ => Act.fail .notImplemented "yield"
  | .yieldFrom _ => Act.fail .notImplemented "yield"
  | .await _ => Act.fail .notImplemented "await"

/-! Statements. -/

/-- A loop over an iterator; the flag tells that it came to its end. -/
def overItems (m : Machine) (scope : Addr) (target : Expr) (body : List Stmt) (a : Addr) :
    (fuel : Nat) → Act (Flow × Bool)
  | 0 => throw .exhausted
  | fuel + 1 => do
    match ← m.next a with
    | none => return (.onward, true)
    | some v =>
      assign m scope targetDepth target v
      match ← m.exec scope body with
      | .leave => return (.onward, false)
      | .result v => return (.result v, false)
      | _ => overItems m scope target body a fuel

/-- A loop while a test holds; the flag tells that the test ended it. -/
def whileHolds (m : Machine) (scope : Addr) (test : Expr) (body : List Stmt) :
    (fuel : Nat) → Act (Flow × Bool)
  | 0 => throw .exhausted
  | fuel + 1 => do
    if ← Act.truth (← m.eval scope test) then
      match ← m.exec scope body with
      | .leave => return (.onward, false)
      | .result v => return (.result v, false)
      | _ => whileHolds m scope test body fuel
    else return (.onward, true)

def isError (h : Heap) (v : Value) : Bool :=
  match v with
  | .ref a =>
    match h.object a with
    | .error _ _ _ => true
    | _ => false
  | _ => false

/-- The error that a value stands for when it is raised: itself, or a new one of its class. -/
def errorOf (m : Machine) (refusal : String) (v : Value) : Act Value := do
  match v with
  | .type (.error _) => m.call v [] []
  | v => if isError (← get) v then return v else Act.typeError refusal

def execRaise (m : Machine) (scope : Addr) (error cause : Option Expr) : Act Flow := do
  match error with
  | none =>
    match (← get).handling with
    | current :: _ => Act.raise current
    | [] => Act.fail .runtime "No active exception to reraise"
  | some e =>
    let v ← m.eval scope e
    let reason ← evalOption m scope cause
    let error ← errorOf m "exceptions must derive from BaseException" v
    match reason with
    | .nothing => Act.raise error
    | reason =>
      let _ ← errorOf m "exception causes must derive from BaseException" reason
      Act.raise error

/-- Whether an error is one that a handler of some classes catches. -/
def catches (error classes : Value) : Act Bool := do
  let c := error.classOf (← get)
  let ofOne := fun (v : Value) => match v with
    | .type (.error d) => return c.isA (.error d)
    | _ =>
      Act.typeError "catching classes that do not inherit from BaseException is not allowed"
  match classes with
  | .tuple items => (fun answers => answers.any id) <$> items.mapM ofOne
  | v => ofOne v

/-- Runs statements while an error counts as being handled. -/
def whileHandling (m : Machine) (scope : Addr) (error : Value) (name : Option String)
    (body : List Stmt) : Act Flow := do
  match name with
  | some n => Act.bindName scope n error
  | none => pure ()
  let before := (← get).handling
  modify (fun h => { h with handling := error :: before })
  let answer ← Act.attempt (m.exec scope body)
  modify (fun h => { h with handling := before })
  match name with
  | some n =>
    let f ← Act.frame scope
    Act.write scope (.frame (f.unset n))
  | none => pure ()
  Act.ofAttempt answer

/-- The first handler that catches an error runs; if none does, the error goes on. -/
def handle (m : Machine) (scope : Addr) (error : Value) : List Handler → Act Flow
  | [] => Act.raise error
  | .mk none name body :: _ => whileHandling m scope error name body
  | .mk (some type) name body :: rest => do
    let before := (← get).handling
    modify (fun h => { h with handling := error :: before })
    let answer ← Act.attempt (do catches error (← m.eval scope type))
    modify (fun h => { h with handling := before })
    if ← Act.ofAttempt answer then whileHandling m scope error name body
    else handle m scope error rest

def execGuarded (m : Machine) (scope : Addr) (body : List Stmt) (handlers : List Handler)
    (orelse : List Stmt) : Act Flow := do
  match ← Act.attempt (m.exec scope body) with
  | .ok .onward => m.exec scope orelse
  | .ok flow => return flow
  | .error (.raised error) => handle m scope error handlers
  | .error .exhausted => throw .exhausted

/-- A last block runs however the first act ended; what it ends with itself counts more. -/
def execFinally (act last : Act Flow) : Act Flow := do
  let answer ← Act.attempt act
  match answer with
  | .error .exhausted => throw .exhausted
  | answer =>
    let before := (← get).handling
    match answer with
    | .error (.raised error) => modify (fun h => { h with handling := error :: before })
    | _ => pure ()
    let final ← Act.attempt last
    modify (fun h => { h with handling := before })
    match ← Act.ofAttempt final with
    | .onward => Act.ofAttempt answer
    | flow => return flow

/-- Removal of a target, whose depth is bounded. -/
def delete (m : Machine) (scope : Addr) : (depth : Nat) → Expr → Act Unit
  | 0, _ => throw .exhausted
  | depth + 1, target => do
    match target with
    | .name id => Act.unbindName scope id
    | .tuple items => items.forM (delete m scope depth)
    | .list items => items.forM (delete m scope depth)
    | .attribute object name => do m.access.delete (← m.eval scope object) name
    | .subscript object index => do
      let v ← m.eval scope object
      Act.deleteSubscript v (← m.eval scope index)
    | _ => Act.fail .grammar "cannot delete"

/-- A target is read, changed and assigned again; its parts are evaluated once. -/
def execAugment (m : Machine) (scope : Addr) (target : Expr) (op : BinaryOp) (value : Expr) :
    Act Unit := do
  match target with
  | .attribute object name =>
    let v ← m.eval scope object
    let old ← m.access.read v name
    m.access.assign v name (← Act.augment m op old (← m.eval scope value))
  | .subscript object index =>
    let v ← m.eval scope object
    let place ← m.eval scope index
    let old ← Act.subscript v place
    let new ← Act.augment m op old (← m.eval scope value)
    Act.setSubscript v place new (sliceItems m new)
  | .name id =>
    let old ← Act.lookup scope id
    Act.bindName scope id (← Act.augment m op old (← m.eval scope value))
  | _ => Act.fail .grammar "cannot assign"

/-- An annotated target. Annotations only count outside functions. -/
def execAnnotate (m : Machine) (scope : Addr) (target hint : Expr) (value : Option Expr) :
    Act Unit := do
  match target, value with
  | _, some e => do assign m scope targetDepth target (← m.eval scope e)
  | .attribute object _, none => do
    let _ ← m.eval scope object
  | .subscript object index, none => do
    let _ ← m.eval scope object
    let _ ← m.eval scope index
  | _, none => pure ()
  if (← Act.frame scope).kind == .module then
    let _ ← m.eval scope hint

def annotations (p : Params) (result : Option Expr) : List Expr :=
  let of := fun
    | Param.mk _ hint => hint.toList
  (p.positional ++ p.positionalOnly ++ p.rest.toList ++ p.keywordOnly ++
    p.keywordRest.toList).flatMap of ++ result.toList

def decorate (m : Machine) (f : Value) : List Value → Act Value
  | [] => return f
  | d :: rest => do m.call d [← decorate m f rest] []

def execFunction (m : Machine) (scope : Addr) (name : String) (params : Params)
    (body : List Stmt) (decorators : List Expr) (result : Option Expr) : Act Unit := do
  let wrappers ← decorators.mapM (m.eval scope)
  let f ← makeFunction m scope name params (.block body)
  let _ ← (annotations params result).mapM (m.eval scope)
  Act.bindName scope name (← decorate m f wrappers)

def execOne (m : Machine) (scope : Addr) (s : Stmt) : Act Flow := do
  match s with
  | .expr value =>
    let _ ← m.eval scope value
    return .onward
  | .assign targets value =>
    let v ← m.eval scope value
    targets.forM (fun target => assign m scope targetDepth target v)
    return .onward
  | .augment target op value =>
    execAugment m scope target op value
    return .onward
  | .annotate target hint value =>
    execAnnotate m scope target hint value
    return .onward
  | .delete targets =>
    targets.forM (delete m scope targetDepth)
    return .onward
  | .branch test body orelse =>
    if ← Act.truth (← m.eval scope test) then m.exec scope body else m.exec scope orelse
  | .whileLoop test body orelse =>
    match ← whileHolds m scope test body m.fuel with
    | (.onward, true) => m.exec scope orelse
    | (flow, _) => return flow
  | .forLoop target source body orelse =>
    let a ← Act.iterate (← m.eval scope source)
    match ← overItems m scope target body a m.fuel with
    | (.onward, true) => m.exec scope orelse
    | (flow, _) => return flow
  | .pass => return .onward
  | .breakLoop => return .leave
  | .continueLoop => return .again
  | .giveBack value => do return .result (← evalOption m scope value)
  | .raise error cause => execRaise m scope error cause
  | .assertion test message =>
    if ← Act.truth (← m.eval scope test) then return .onward
    else
      match message with
      | none => Act.failWith .assertion []
      | some e => do Act.failWith .assertion [← m.eval scope e]
  | .guarded body handlers orelse final =>
    let act := execGuarded m scope body handlers orelse
    if final.isEmpty then act else execFinally act (m.exec scope final)
  | .function name params body decorators result =>
    execFunction m scope name params body decorators result
    return .onward
  | .foreign _ => Act.fail .notImplemented "import"

def execAll (m : Machine) (scope : Addr) : List Stmt → Act Flow
  | [] => return .onward
  | s :: rest => do
    match ← execOne m scope s with
    | .onward => execAll m scope rest
    | flow => return flow

/-! Calls. -/

/-- Runs a program in a frame. A block gives nothing. -/
def runProgram (m : Machine) (scope : Addr) : Program → Act Value
  | .expression body => m.eval scope body
  | .block body => do
    let _ ← m.exec scope body
    return .nothing

/-- The program of a source, or its refusal as an error of the script. -/
def compiled (source : String) : Act Program := do
  match compile source with
  | .ok p => return p
  | .error (.refused r) =>
    Act.raise (← Act.allocate (.error .expression [.str (r.message source)]
      #[("source", .str source), ("reason", .str r.reason)]))
  | .error .misplaced => Act.fail .grammar "misplaced"

/-- The bindings of the two classes that scripts report outcomes with. -/
def outcomeClasses : List (String × Value) :=
  [("StepRetriableError", .type (.error .retriable)),
   ("InputRequired", .type (.kind .inputRequired))]

/-- A supplied source evaluated on the arguments of a call. -/
def runSupplied (m : Machine) (f : Supplied) (args : List Value) : Act Value := do
  let program ← compiled f.source
  let all ← Act.newList args.toArray
  let first := (args.take 1).map (fun v => ("ctx", v))
  let second := ((args.drop 1).take 1).map (fun v => ("input", v))
  let scope ← Act.alloc (.frame
    { kind := .module, values := [("args", all)] ++ first ++ second ++ outcomeClasses,
      builtins := standardBuiltins })
  runProgram m scope program

/-- A call of a function whose body runs on a machine with one call less to nest. -/
def callFunction (deeper : Machine) (f : Function) (args : List Value)
    (named : List (String × Value)) : Act Value := do
  let values ← Act.fillParams f args named
  let declared := Scope.ofBody f.params f.body
  let scope ← Act.alloc (.frame { kind := .function, declared, values, outer := some f.scope })
  if deeper.calls == 0 then Act.fail .recursion "maximum recursion depth exceeded"
  match f.body with
  | .expression e => deeper.eval scope e
  | .block stmts =>
    match ← deeper.exec scope stmts with
    | .result v => return v
    | _ => return .nothing

def callWith (m deeper : Machine) (f : Value) (args : List Value)
    (named : List (String × Value)) : Act Value := do
  let given : Arguments := ⟨args, named⟩
  match f with
  | .type c => make m c given
  | .builtin b => callBuiltin m b given
  | .bound method receiver => callMethod m method receiver given
  | .method method =>
    match args with
    | receiver :: rest => callMethod m method receiver ⟨rest, named⟩
    | [] =>
      let (home, name) := method.home
      Act.typeError s!"unbound method {home.name}.{name}() needs an argument"
  | .ref a =>
    match ← Act.object a with
    | .function g => callFunction deeper g args named
    | .supplied g =>
      if !named.isEmpty then
        Act.typeError s!"{g.name}() got an unexpected keyword argument"
      if g.deferred then Act.allocate (.awaitable g args)
      else if deeper.calls == 0 then Act.fail .recursion "maximum recursion depth exceeded"
      else runSupplied deeper g args
    | _ => Act.typeError s!"'{← Act.typeName f}' object is not callable"
  | f => Act.typeError s!"'{← Act.typeName f}' object is not callable"

/-- The interpreter with some fuel, in which calls nest to a depth. -/
def machine (access : Access) : (fuel calls : Nat) → Machine
  | 0, calls =>
    { access, fuel := 0, calls
      eval := fun _ _ => throw .exhausted
      exec := fun _ _ => throw .exhausted
      call := fun _ _ _ => throw .exhausted
      next := fun _ => throw .exhausted }
  | fuel + 1, calls =>
    { access, fuel, calls
      eval := fun scope e => evalWith (machine access fuel calls) scope e
      exec := fun scope stmts => execAll (machine access fuel calls) scope stmts
      call := fun f args named =>
        callWith (machine access fuel calls) (machine access fuel (calls - 1)) f args named
      next := fun a => nextItem (machine access fuel calls) a }

def Value.isCallable (h : Heap) : Value → Bool
  | .type _ => true
  | .builtin _ => true
  | .method _ => true
  | .bound _ _ => true
  | .ref a =>
    match h.object a with
    | .function _ => true
    | .supplied _ => true
    | _ => false
  | _ => false

/-- Waits for a value that was deferred; any other value is there already. -/
def await (m : Machine) (v : Value) : Act Value := do
  match v with
  | .ref a =>
    match ← Act.object a with
    | .awaitable f args => runSupplied m f args
    | _ => return v
  | v => return v

end Workflow.Script
