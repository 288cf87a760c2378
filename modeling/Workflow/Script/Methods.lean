import Workflow.Script.Sorting
import Workflow.Text.Case

/-! The methods of texts, rows, dictionaries and sets. -/

namespace Workflow.Script

/-- Arguments of a call. -/
structure Arguments where
  positional : List Value
  named : List (String × Value)

namespace Act

def plural (n : Nat) : String := if n == 1 then "" else "s"

def noKeywords (name : String) (args : Arguments) : Act Unit := do
  if !args.named.isEmpty then typeError s!"{name}() takes no keyword arguments"

def noArguments (name : String) (args : Arguments) : Act Unit := do
  noKeywords name args
  if !args.positional.isEmpty then
    typeError s!"{name}() takes no arguments ({args.positional.length} given)"

def oneArgument (name : String) (args : Arguments) : Act Value := do
  noKeywords name args
  match args.positional with
  | [v] => return v
  | given => typeError s!"{name}() takes exactly one argument ({given.length} given)"

/-- From `least` to `most` positional arguments, and no others. -/
def between (home name : String) (least most : Nat) (args : Arguments) : Act (List Value) := do
  noKeywords (home ++ "." ++ name) args
  let n := args.positional.length
  if n < least then
    let bound := if least == most then "" else "at least "
    typeError s!"{name} expected {bound}{least} argument{plural least}, got {n}"
  else if n > most then
    let bound := if least == most then "" else "at most "
    typeError s!"{name} expected {bound}{most} argument{plural most}, got {n}"
  else return args.positional

/-- A value that counts places. -/
def index (v : Value) : Act Int := do
  match v.int? with
  | some n => return n
  | none => typeError s!"'{← typeName v}' object cannot be interpreted as an integer"

def textOf (refusal : String → String) (v : Value) : Act (List Char) := do
  match v with
  | .str s => return s.toList
  | v => typeError (refusal (← typeName v))

end Act

/-- The part of a text between two places, and where it begins; none when it begins behind its end or
behind the text. -/
def window (cs : List Char) (bounds : List Value) : Act (Option (Nat × List Char)) := do
  let n : Int := cs.length
  let start ← match bounds with
    | v :: _ => Act.bound? v
    | [] => pure none
  let stop ← match bounds with
    | _ :: v :: _ => Act.bound? v
    | _ => pure none
  let place := fun (i : Int) => if i < 0 then max 0 (i + n) else i
  let start := place (start.getD 0)
  let stop := min n (place (stop.getD n))
  if start > n || start > stop then return none
  else return some (start.toNat, (cs.drop start.toNat).take (stop - start).toNat)

def mustBeText (name : String) : String := s!"must be str, not {name}"

/-- Whether a text begins, or ends, with one of several parts. -/
def edgeTest (name : String) (test : List Char → List Char → Bool) (cs : List Char)
    (args : Arguments) : Act Value := do
  match ← Act.between "str" name 1 3 args with
  | part :: bounds =>
    let parts ← match part with
      | .str s => pure [s.toList]
      | .tuple items =>
        items.mapM (Act.textOf (fun t => s!"tuple for {name} must only contain str, not {t}"))
      | v =>
        Act.typeError
          s!"{name} first arg must be str or a tuple of str, not {← Act.typeName v}"
    match ← window cs bounds with
    | none => return .bool false
    | some (_, inside) => return .bool (parts.any (fun part => test part inside))
  | [] => return .bool false

def stripWith (name : String) (cut : (Char → Bool) → List Char → List Char) (cs : List Char)
    (args : Arguments) : Act Value := do
  match ← Act.between "str" name 0 1 args with
  | [] => return .str (String.ofList (cut Text.isBlank cs))
  | [.nothing] => return .str (String.ofList (cut Text.isBlank cs))
  | .str chars :: _ => return .str (String.ofList (cut chars.toList.contains cs))
  | _ => Act.typeError s!"{name} arg must be None or str"

/-- A parameter that may be given in its place or by its name. -/
def parameter (args : Arguments) (place : Nat) (name : String) : Option Value :=
  (args.positional[place]?).or ((args.named.find? (·.1 == name)).map (·.2))

def splitText (cs : List Char) (args : Arguments) : Act Value := do
  if args.positional.length > 2 then
    Act.typeError s!"split() takes at most 2 arguments ({args.positional.length} given)"
  match args.named.find? (fun (n, _) => n != "sep" && n != "maxsplit") with
  | some (n, _) => Act.typeError s!"'{n}' is an invalid keyword argument for split()"
  | none => pure ()
  let most ← match parameter args 1 "maxsplit" with
    | some v => Act.index v
    | none => pure (-1)
  let cut? : Option Nat := if most < 0 then none else some most.toNat
  let parts ← match parameter args 0 "sep" with
    | some (.str part) =>
      if part.isEmpty then Act.valueError "empty separator"
      pure (Text.splitAt part.toList cut? cs)
    | none => pure (Text.wordsUpTo (cs.length + 1) (cut?.getD cs.length) cs)
    | some .nothing => pure (Text.wordsUpTo (cs.length + 1) (cut?.getD cs.length) cs)
    | some v => Act.typeError s!"must be str or None, not {← Act.typeName v}"
  Act.newList (parts.map (fun p => Value.str (String.ofList p))).toArray

/-- The texts of a row, which must all be texts. -/
def textsOf : (items : List Value) → (i : Nat) → Act (List (List Char))
  | [], _ => return []
  | .str s :: rest, i => return s.toList :: (← textsOf rest (i + 1))
  | v :: _, i => do
    Act.typeError s!"sequence item {i}: expected str instance, {← Act.typeName v} found"

def joinTexts (m : Machine) (cs : List Char) (args : Arguments) : Act Value := do
  let v ← Act.oneArgument "str.join" args
  match ← Act.iterate? v with
  | none => Act.typeError "can only join an iterable"
  | some a =>
    let items ← drain m a
    return .str (String.ofList (cs.intercalate (← textsOf items.toList 0)))

def replaceText (cs : List Char) (args : Arguments) : Act Value := do
  match ← Act.between "str" "replace" 2 3 args with
  | old :: new :: rest =>
    let old ← Act.textOf (fun t => s!"replace() argument 1 must be str, not {t}") old
    let new ← Act.textOf (fun t => s!"replace() argument 2 must be str, not {t}") new
    let most ← match rest with
      | v :: _ => Act.index v
      | [] => pure (-1)
    let most := if most < 0 then none else some most.toNat
    return .str (String.ofList (Text.replace old new most cs))
  | _ => return .nothing

def callTextMethod (m : Machine) (method : Method) (s : String) (args : Arguments) :
    Act Value := do
  let cs := s.toList
  match method with
  | .upper =>
    Act.noArguments "str.upper" args
    return .str (Text.upper s)
  | .lower =>
    Act.noArguments "str.lower" args
    return .str (Text.lower s)
  | .title =>
    Act.noArguments "str.title" args
    return .str (Text.title s)
  | .strip => stripWith "strip" Text.trim cs args
  | .leftStrip => stripWith "lstrip" (fun member cs => cs.dropWhile member) cs args
  | .rightStrip => stripWith "rstrip" Text.dropLast cs args
  | .split => splitText cs args
  | .join => joinTexts m cs args
  | .replace => replaceText cs args
  | .startsWith => edgeTest "startswith" List.isPrefixOf cs args
  | .endsWith => edgeTest "endswith" List.isSuffixOf cs args
  | .find =>
    match ← Act.between "str" "find" 1 3 args with
    | part :: bounds =>
      let part ← Act.textOf mustBeText part
      match ← window cs bounds with
      | none => return .int (-1)
      | some (start, inside) =>
        match Text.findFrom part 0 inside with
        | some i => return .int (start + i : Nat)
        | none => return .int (-1)
    | [] => return .nothing
  | .textCount =>
    match ← Act.between "str" "count" 1 3 args with
    | part :: bounds =>
      let part ← Act.textOf mustBeText part
      match ← window cs bounds with
      | none => return .int 0
      | some (_, inside) => return .int (Text.occurrences part inside)
    | [] => return .nothing
  | .isDigit =>
    Act.noArguments "str.isdigit" args
    return .bool (!cs.isEmpty && cs.all Text.isDigit)
  | .format => Value.str <$> formatTemplate m.access.field s args.positional args.named
  | _ => return .nothing

def listItems (a : Addr) : Act (Array Value) := do
  match ← Act.object a with
  | .list items => return items
  | _ => return #[]

def popItemAt (a : Addr) (args : Arguments) : Act Value := do
  let items ← listItems a
  let place ← match ← Act.between "list" "pop" 0 1 args with
    | v :: _ => Act.index v
    | [] => pure (-1)
  if items.isEmpty then Act.fail .index "pop from empty list"
  match positionOf? items.size place with
  | none => Act.fail .index "pop index out of range"
  | some p =>
    Act.write a (.list (items.eraseIdxIfInBounds p))
    return (items[p]?).getD .nothing

def sortOptions (name : String) (args : Arguments) : Act (Value × Bool) := do
  match args.named.find? (fun (n, _) => n != "key" && n != "reverse") with
  | some (n, _) => Act.typeError s!"'{n}' is an invalid keyword argument for {name}()"
  | none => pure ()
  let option := fun (n : String) => (args.named.find? (·.1 == n)).map (·.2)
  let reverse ← match option "reverse" with
    | some v => pure ((← Act.index v) != 0)
    | none => pure false
  return ((option "key").getD .nothing, reverse)

/-- The place of the first item that equals a value, between two places. -/
def findItem (items : List Value) (args : List Value) : Act (Option Nat) := do
  match args with
  | [] => return none
  | v :: bounds =>
    match ← window (items.map (fun _ => ' ')) bounds with
    | none => return none
    | some (start, inside) => Act.position? v ((items.drop start).take inside.length) start

def callListMethod (m : Machine) (method : Method) (a : Addr) (args : Arguments) : Act Value := do
  let items ← listItems a
  match method with
  | .append =>
    let v ← Act.oneArgument "list.append" args
    Act.write a (.list (items.push v))
    return .nothing
  | .listPop => popItemAt a args
  | .listRemove =>
    let v ← Act.oneArgument "list.remove" args
    match ← Act.position? v items.toList 0 with
    | some p =>
      Act.write a (.list (items.eraseIdxIfInBounds p))
      return .nothing
    | none => Act.valueError "list.remove(x): x not in list"
  | .index =>
    let given ← Act.between "list" "index" 1 3 args
    match ← findItem items.toList given with
    | some p => return .int p
    | none => Act.valueError s!"{← Act.quoted (given.head?.getD .nothing)} is not in list"
  | .listCount =>
    let v ← Act.oneArgument "list.count" args
    return .int (← Act.countOf v items.toList 0)
  | .listCopy =>
    Act.noArguments "list.copy" args
    Act.newList items
  | .listClear =>
    Act.noArguments "list.clear" args
    Act.write a (.list #[])
    return .nothing
  | .extend =>
    let v ← Act.oneArgument "list.extend" args
    let more ← itemsOf m v
    Act.write a (.list ((← listItems a) ++ more))
    return .nothing
  | .insert =>
    match ← Act.between "list" "insert" 2 2 args with
    | [place, v] =>
      let n ← Act.index place
      let p := (Span.clamp items.size 0 items.size n).toNat
      Act.write a (.list (items.extract 0 p ++ #[v] ++ items.extract p items.size))
      return .nothing
    | _ => return .nothing
  | .reverse =>
    Act.noArguments "list.reverse" args
    Act.write a (.list items.reverse)
    return .nothing
  | .sort =>
    if !args.positional.isEmpty then Act.typeError "sort() takes no positional arguments"
    let (key, reverse) ← sortOptions "sort" args
    Act.write a (.list (← sortValues m key reverse items.toList))
    return .nothing
  | _ => return .nothing

def dictEntries (a : Addr) : Act Entries := do
  match ← Act.object a with
  | .dict entries => return entries
  | _ => return #[]

def namedEntries (named : List (String × Value)) : Entries :=
  (named.map (fun (n, v) => (Value.str n, v))).toArray

def callDictMethod (m : Machine) (method : Method) (a : Addr) (args : Arguments) : Act Value := do
  let entries ← dictEntries a
  match method with
  | .get =>
    match ← Act.between "dict" "get" 1 2 args with
    | key :: rest =>
      Act.checkKey key
      return (Entries.get? entries key).getD (rest.head?.getD .nothing)
    | [] => return .nothing
  | .keys =>
    Act.noArguments "dict.keys" args
    Act.allocate (.view .keys a)
  | .values =>
    Act.noArguments "dict.values" args
    Act.allocate (.view .values a)
  | .items =>
    Act.noArguments "dict.items" args
    Act.allocate (.view .items a)
  | .dictCopy =>
    Act.noArguments "dict.copy" args
    Act.newDict entries
  | .dictUpdate =>
    let given ← Act.between "dict" "update" 0 1 { args with named := [] }
    let more ← match given with
      | v :: _ => Act.entriesOf m v
      | [] => pure #[]
    let entries ← dictEntries a
    Act.write a (.dict (Entries.insertAll (Entries.insertAll entries more)
      (namedEntries args.named)))
    return .nothing
  | .setDefault =>
    match ← Act.between "dict" "setdefault" 1 2 args with
    | key :: rest =>
      Act.checkKey key
      match Entries.get? entries key with
      | some found => return found
      | none =>
        let v := rest.head?.getD .nothing
        Act.write a (.dict (Entries.insert entries key v))
        return v
    | [] => return .nothing
  | .dictPop =>
    match ← Act.between "dict" "pop" 1 2 args with
    | key :: rest =>
      Act.checkKey key
      match Entries.get? entries key, rest with
      | some found, _ =>
        Act.write a (.dict (Entries.erase entries key))
        return found
      | none, v :: _ => return v
      | none, [] => Act.failWith .key [key]
    | [] => return .nothing
  | .dictClear =>
    Act.noArguments "dict.clear" args
    Act.write a (.dict #[])
    return .nothing
  | .popItem =>
    Act.noArguments "dict.popitem" args
    match entries.back? with
    | some (key, v) =>
      Act.write a (.dict entries.pop)
      return .tuple [key, v]
    | none => Act.failWith .key [.str "popitem(): dictionary is empty"]
  | _ => return .nothing

def setMembers (a : Addr) : Act (Array Value) := do
  match ← Act.object a with
  | .set members => return members
  | _ => return #[]

/-- Values put into a set one by one. -/
def insertMembers : (members : Array Value) → List Value → Act (Array Value)
  | members, [] => return members
  | members, v :: rest => do
    Act.checkKey v
    insertMembers (Members.insert members v) rest

def updateSet (m : Machine) (members : Array Value) : List Value → Act (Array Value)
  | [] => return members
  | v :: rest => do
    let items ← itemsOf m v
    updateSet m (← insertMembers members items.toList) rest

def callSetMethod (m : Machine) (method : Method) (a : Addr) (args : Arguments) : Act Value := do
  let members ← setMembers a
  match method with
  | .add =>
    let v ← Act.oneArgument "set.add" args
    Act.checkKey v
    Act.write a (.set (Members.insert members v))
    return .nothing
  | .discard =>
    let v ← Act.oneArgument "set.discard" args
    Act.checkKey v
    Act.write a (.set (Members.erase members v))
    return .nothing
  | .setRemove =>
    let v ← Act.oneArgument "set.remove" args
    Act.checkKey v
    if !Members.contains members v then Act.failWith .key [v]
    Act.write a (.set (Members.erase members v))
    return .nothing
  | .setUpdate =>
    Act.noKeywords "set.update" args
    Act.write a (.set (← updateSet m members args.positional))
    return .nothing
  | .setCopy =>
    Act.noArguments "set.copy" args
    Act.newSet members
  | _ => return .nothing

def callTupleMethod (method : Method) (items : List Value) (args : Arguments) : Act Value := do
  match method with
  | .tupleIndex =>
    match ← findItem items (← Act.between "tuple" "index" 1 3 args) with
    | some p => return .int p
    | none => Act.valueError "tuple.index(x): x not in tuple"
  | .tupleCount =>
    let v ← Act.oneArgument "tuple.count" args
    return .int (← Act.countOf v items 0)
  | _ => return .nothing

/-- A method of a value. The value must be of the kind that the method belongs to. -/
def callMethod (m : Machine) (method : Method) (receiver : Value) (args : Arguments) :
    Act Value := do
  let (home, name) := method.home
  let refusal := do
    Act.typeError (s!"descriptor '{name}' for '{home.name}' objects doesn't apply to a " ++
      s!"'{← Act.typeName receiver}' object")
  match home, receiver with
  | .str, .str s => callTextMethod m method s args
  | .tuple, .tuple items => callTupleMethod method items args
  | home, .ref a =>
    match home, ← Act.object a with
    | .list, .list _ => callListMethod m method a args
    | .dict, .dict _ => callDictMethod m method a args
    | .set, .set _ => callSetMethod m method a args
    | _, _ => refusal
  | _, _ => refusal

end Workflow.Script
