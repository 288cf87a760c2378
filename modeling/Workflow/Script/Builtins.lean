import Workflow.Script.Methods
import Workflow.Script.Numeral

/-! Functions that belong to no value, and the making of values by their classes. -/

namespace Workflow.Script

def exactly (name : String) (count : Nat) (args : Arguments) : Act (List Value) := do
  Act.noKeywords name args
  let n := args.positional.length
  if n != count then
    if count == 1 then Act.typeError s!"{name}() takes exactly one argument ({n} given)"
    else Act.typeError s!"{name} expected {count} arguments, got {n}"
  return args.positional

def atMost (name : String) (most : Nat) (args : Arguments) : Act (List Value) := do
  Act.noKeywords name args
  let n := args.positional.length
  if n > most then
    Act.typeError s!"{name} expected at most {most} argument{Act.plural most}, got {n}"
  return args.positional

/-- Refuses keyword arguments that are not among some names. -/
def onlyNamed (name : String) (names : List String) (args : Arguments) : Act Unit := do
  match args.named.find? (fun (n, _) => !names.contains n) with
  | some (n, _) => Act.typeError s!"'{n}' is an invalid keyword argument for {name}()"
  | none => pure ()

def magnitude (v : Value) : Act Value := do
  match v.numeric? with
  | some (.whole n) => return .int n.natAbs
  | some (.real x) => return .float x.abs
  | none => Act.typeError s!"bad operand type for abs(): '{← Act.typeName v}'"

/-- Whether some item counts as the truth value that is sought. -/
def seek (m : Machine) (sought : Bool) (a : Addr) : (fuel : Nat) → Act Bool
  | 0 => throw .exhausted
  | fuel + 1 => do
    match ← m.next a with
    | none => return false
    | some v => if (← Act.truth v) == sought then return true else seek m sought a fuel

/-- Whether a class is another one or extends it. -/
def Class.isA (c d : Class) : Bool :=
  match c, d with
  | .error c, .error d => c.isA d
  | .kind .bool, .kind .int => true
  | .kind .moment, .kind .date => true
  | c, d => c == d

/-- Whether a class is among the classes that a value stands for; none if it stands for none. -/
def classAmong? (c : Class) : (depth : Nat) → Value → Option Bool
  | 0, _ => none
  | _, .type d => some (c.isA d)
  | depth + 1, .tuple items => anyAmong (classAmong? c depth) items
  | _, _ => none
where
  anyAmong (test : Value → Option Bool) : List Value → Option Bool
    | [] => some false
    | v :: rest =>
      match test v with
      | some false => anyAmong test rest
      | answer => answer

def isInstance (v classes : Value) : Act Value := do
  match classAmong? (v.classOf (← get)) depthLimit classes with
  | some answer => return .bool answer
  | none =>
    Act.typeError "isinstance() arg 2 must be a type, a tuple of types, or a union"

def lengthOf (v : Value) : Act Nat := do
  let h ← get
  match v with
  | .str s => return s.length
  | .tuple items => return items.length
  | .range start stop step => return rangeLength start stop step
  | .ref a =>
    match h.object a with
    | .list items => return items.size
    | .dict entries => return entries.size
    | .set members => return members.size
    | .view part source => return (part.row h source).length
    | _ => Act.typeError s!"object of type '{v.typeName h}' has no len()"
  | v => Act.typeError s!"object of type '{v.typeName h}' has no len()"

/-- The item whose key wins all comparisons, the first one if several do. -/
def extreme (m : Machine) (test : OrderTest) (key : Value) : (best : Option (Value × Value)) →
    List Value → Act (Option Value)
  | best, [] => return best.map (·.2)
  | best, v :: rest => do
    let k ← match key with
      | .nothing => pure v
      | key => m.call key [v] []
    match best with
    | none => extreme m test key (some (k, v)) rest
    | some (other, w) =>
      if ← Act.ordered test k other then extreme m test key (some (k, v)) rest
      else extreme m test key (some (other, w)) rest

def extremeOf (m : Machine) (name : String) (test : OrderTest) (args : Arguments) :
    Act Value := do
  onlyNamed name ["key", "default"] args
  let option := fun (n : String) => (args.named.find? (·.1 == n)).map (·.2)
  let key := (option "key").getD .nothing
  let items ← match args.positional with
    | [] => Act.typeError s!"{name} expected at least 1 argument, got 0"
    | [v] => (·.toList) <$> itemsOf m v
    | several =>
      if (option "default").isSome then
        Act.typeError
          s!"Cannot specify a default for {name}() with multiple positional arguments"
      pure several
  match ← extreme m test key none items, option "default" with
  | some v, _ => return v
  | none, some v => return v
  | none, none => Act.valueError s!"{name}() arg is an empty sequence"

def roundWhole (v : Value) : Act Value := do
  match v with
  | .float x =>
    match (Number.Double.ofFloat x).round? with
    | some n => return .int n
    | none =>
      if x.isNaN then Act.valueError "cannot convert float NaN to integer"
      else Act.fail .overflow "cannot convert float infinity to integer"
  | v =>
    match v.int? with
    | some n => return .int n
    | none => Act.typeError s!"type {← Act.typeName v} doesn't define __round__ method"

def roundTo (v : Value) (places : Int) : Act Value := do
  match v with
  | .float x =>
    let rounded := Number.roundPlaces x places
    if rounded.isInf && !x.isInf then
      Act.fail .overflow "rounded value too large to represent"
    return .float rounded
  | v =>
    match v.int? with
    | some n => return .int (if places ≥ 0 then n else Number.roundTens n (-places).toNat)
    | none => Act.typeError s!"type {← Act.typeName v} doesn't define __round__ method"

def roundValue (args : Arguments) : Act Value := do
  onlyNamed "round" ["number", "ndigits"] args
  match parameter args 0 "number", parameter args 1 "ndigits" with
  | none, _ => Act.typeError "round() missing required argument 'number' (pos 1)"
  | some v, none => roundWhole v
  | some v, some .nothing => roundWhole v
  | some v, some places =>
    match v.numeric? with
    | some _ => roundTo v (← Act.index places)
    | none => roundWhole v

def sumUp (total : Value) : List Value → Act Value
  | [] => return total
  | v :: rest => do sumUp (← Act.binary .add total v) rest

def sumOf (m : Machine) (args : Arguments) : Act Value := do
  onlyNamed "sum" ["start"] args
  match args.positional with
  | [] => Act.typeError "sum() takes at least 1 positional argument (0 given)"
  | v :: rest =>
    let a ← Act.iterate v
    match (rest.head?).or ((args.named.find? (·.1 == "start")).map (·.2)) with
    | some (.str _) => Act.typeError "sum() can't sum strings [use ''.join(seq) instead]"
    | start => sumUp (start.getD (.int 0)) (← drain m a).toList

def sortedList (m : Machine) (args : Arguments) : Act Value := do
  match args.positional with
  | [v] =>
    let items ← itemsOf m v
    let (key, reverse) ← sortOptions "sort" args
    Act.newList (← sortValues m key reverse items.toList)
  | given =>
    let n := given.length
    Act.typeError s!"sorted expected 1 argument, got {n}"

def callBuiltin (m : Machine) (f : Builtin) (args : Arguments) : Act Value := do
  match f with
  | .abs =>
    match ← exactly "abs" 1 args with
    | v :: _ => magnitude v
    | [] => return .nothing
  | .all =>
    match ← exactly "all" 1 args with
    | v :: _ => do return .bool (!(← seek m false (← Act.iterate v) m.fuel))
    | [] => return .nothing
  | .any =>
    match ← exactly "any" 1 args with
    | v :: _ => do return .bool (← seek m true (← Act.iterate v) m.fuel)
    | [] => return .nothing
  | .isinstance =>
    match ← exactly "isinstance" 2 args with
    | v :: classes :: _ => isInstance v classes
    | _ => return .nothing
  | .len =>
    match ← exactly "len" 1 args with
    | v :: _ => return .int (← lengthOf v)
    | [] => return .nothing
  | .max => extremeOf m "max" .greater args
  | .min => extremeOf m "min" .less args
  | .round => roundValue args
  | .sorted => sortedList m args
  | .sum => sumOf m args

/-! Making values. -/

/-- The base of a whole number that is read from a text. -/
def baseOf : Option Value → Act Int
  | none => return 10
  | some v => do
    let base ← Act.index v
    if base != 0 && (base < 2 || base > 36) then
      Act.valueError "int() base must be >= 2 and <= 36, or 0"
    return base

def makeInt (args : Arguments) : Act Value := do
  onlyNamed "int" ["base"] args
  match args.positional, parameter args 1 "base" with
  | [], none => return .int 0
  | [], some _ => Act.typeError "int() missing string argument"
  | .str s :: _, base =>
    let base ← baseOf base
    return .int (← Act.intOfText base.toNat s)
  | _ :: _, some base =>
    let _ ← baseOf (some base)
    Act.typeError "int() can't convert non-string with explicit base"
  | .float x :: _, none =>
    match (Number.Double.ofFloat x).truncate? with
    | some n => return .int n
    | none =>
      if x.isNaN then Act.valueError "cannot convert float NaN to integer"
      else Act.fail .overflow "cannot convert float infinity to integer"
  | v :: _, none =>
    match v.int? with
    | some n => return .int n
    | none =>
      Act.typeError (s!"int() argument must be a string, a bytes-like object or a real number, " ++
        s!"not '{← Act.typeName v}'")

def makeFloat (args : Arguments) : Act Value := do
  match ← atMost "float" 1 args with
  | [] => return .float 0.0
  | .str s :: _ => return .float (← Act.floatOfText s)
  | v :: _ =>
    match v.numeric? with
    | some n => return .float (← Act.real n)
    | none =>
      Act.typeError
        s!"float() argument must be a string or a real number, not '{← Act.typeName v}'"

def makeRange (args : Arguments) : Act Value := do
  Act.noKeywords "range" args
  match args.positional with
  | [] => Act.typeError "range expected at least 1 argument, got 0"
  | [stop] => return .range 0 (← Act.index stop) 1
  | [start, stop] => return .range (← Act.index start) (← Act.index stop) 1
  | [start, stop, step] =>
    let start ← Act.index start
    let stop ← Act.index stop
    let step ← Act.index step
    if step == 0 then Act.valueError "range() arg 3 must not be zero"
    return .range start stop step
  | given => Act.typeError s!"range expected at most 3 arguments, got {given.length}"

def makeDict (m : Machine) (args : Arguments) : Act Value := do
  let given ← atMost "dict" 1 { args with named := [] }
  let entries ← match given with
    | v :: _ => Act.entriesOf m v
    | [] => pure #[]
  Act.newDict (Entries.insertAll (Entries.insertAll #[] entries) (namedEntries args.named))

def makeEnumerate (args : Arguments) : Act Value := do
  match parameter args 0 "iterable", parameter args 1 "start" with
  | none, _ => Act.typeError "enumerate() missing required argument 'iterable'"
  | some v, start =>
    let count ← match start with
      | some n => Act.index n
      | none => pure 0
    Act.allocate (.iterator (.enumerate (← Act.iterate v) count))

def iterators : List Value → Act (List Addr)
  | [] => return []
  | v :: rest => do
    let a ← Act.iterate v
    return a :: (← iterators rest)

def makeText (args : Arguments) : Act Value := do
  match args.positional with
  | [] => return .str ""
  | [v] => Value.str <$> Act.plain v
  | given => Act.typeError s!"str() takes at most 3 arguments ({given.length} given)"

def makeKind (m : Machine) (k : Kind) (args : Arguments) : Act Value := do
  match k with
  | .bool =>
    match ← atMost "bool" 1 args with
    | v :: _ => return .bool (← Act.truth v)
    | [] => return .bool false
  | .int => makeInt args
  | .float => makeFloat args
  | .str => makeText args
  | .list =>
    match ← atMost "list" 1 args with
    | v :: _ => Act.newList (← itemsOf m v)
    | [] => Act.newList #[]
  | .tuple =>
    match ← atMost "tuple" 1 args with
    | .tuple items :: _ => return .tuple items
    | v :: _ => return .tuple (← itemsOf m v).toList
    | [] => return .tuple []
  | .set =>
    match ← atMost "set" 1 args with
    | v :: _ => Act.newSet (← insertMembers #[] (← itemsOf m v).toList)
    | [] => Act.newSet #[]
  | .dict => makeDict m args
  | .range => makeRange args
  | .enumerate => makeEnumerate args
  | .zip =>
    onlyNamed "zip" ["strict"] args
    Act.allocate (.iterator (.zip (← iterators args.positional)))
  | k => Act.typeError s!"cannot create '{k.name}' instances"

/-- Refuses arguments that do not fit the parameters of a class, of which some are required. -/
def fieldsOf (name : String) (params : List String) (required : Nat) (args : Arguments) :
    Act (List Value) := do
  let given := args.positional.length
  if given > params.length then
    let least := if required < params.length then s!"from {required + 1} to " else ""
    Act.typeError
      (s!"{name}.__init__() takes {least}{params.length + 1} positional arguments but " ++
        s!"{given + 1} were given")
  match args.named.find? (fun (n, _) => !params.contains n) with
  | some (n, _) => Act.typeError s!"{name}.__init__() got an unexpected keyword argument '{n}'"
  | none => pure ()
  match args.named.find? (fun (n, _) => (params.take given).contains n) with
  | some (n, _) => Act.typeError s!"{name}.__init__() got multiple values for argument '{n}'"
  | none => pure ()
  match (params.take required).zipIdx.find? (fun (n, i) => (parameter args i n).isNone) with
  | some (n, _) =>
    Act.typeError s!"{name}.__init__() missing 1 required positional argument: '{n}'"
  | none => pure ()
  return params.zipIdx.map (fun (n, i) => (parameter args i n).getD .nothing)

def inputRequiredNames : List String := ["descriptor", "expires", "errors"]

def makeInputRequired (args : Arguments) : Act Value := do
  let values ← fieldsOf "InputRequired" inputRequiredNames 1 args
  Act.allocate (.record .inputRequired (inputRequiredNames.zip values).toArray)

def retriableNames : List String := ["original_error", "input_required", "errors", "expires"]

/-- A failure that may be tried again. Its message is that of the error that caused it. -/
def makeRetriable (args : Arguments) : Act Value := do
  let values ← fieldsOf "StepRetriableError" retriableNames 1 args
  let message ← Act.plain (values.head?.getD .nothing)
  Act.allocate (.error .retriable [.str message] (retriableNames.zip values).toArray)

def makeError (c : ErrorClass) (args : Arguments) : Act Value := do
  if c == .retriable then makeRetriable args
  else
    Act.noKeywords c.name args
    Act.allocate (.error c args.positional #[])

def make (m : Machine) (c : Class) (args : Arguments) : Act Value :=
  match c with
  | .error c => makeError c args
  | .kind .inputRequired => makeInputRequired args
  | .kind k => makeKind m k args

/-- The names that scripts may use without binding them. -/
def standardBuiltins : List (String × Value) :=
  [("True", .bool true), ("False", .bool false), ("None", .nothing)] ++
    Builtin.names.map (fun (f, name) => (name, .builtin f)) ++
    [Kind.bool, .dict, .enumerate, .float, .int, .list, .range, .set, .str, .tuple, .zip].map
      (fun k => (k.name, .type (.kind k))) ++
    [ErrorClass.exception, .value, .runtime, .key].map (fun c => (c.name, .type (.error c)))

end Workflow.Script
