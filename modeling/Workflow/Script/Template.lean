import Workflow.Script.Attribute
import Workflow.Script.Index
import Workflow.Script.Layout
import Workflow.Text.Digit

/-! Templates with replacement fields in braces. A field names an argument by position or by name, goes
on to attributes and items of it, and may give a conversion and a specification; a specification may
hold fields itself. -/

namespace Workflow.Script

namespace Template

/-- A field as it is written. -/
structure Field where
  name : List Char
  conversion : Option Char
  spec : List Char
  /-- Whether the specification holds fields. -/
  nested : Bool

inductive Fault where
  | singleClose
  | singleOpen
  | openInName
  | endsInConversion
  | colonExpected
  | unmatched
  | closeExpected
  | emptyAttribute
  | missingBracket
  | afterBracket
  | tooManyDigits
  | recursion
  deriving DecidableEq, Repr

def Fault.message : Fault → String
  | .singleClose => "Single '\x7d' encountered in format string"
  | .singleOpen => "Single '\x7b' encountered in format string"
  | .openInName => "unexpected '\x7b' in field name"
  | .endsInConversion => "end of string while looking for conversion specifier"
  | .colonExpected => "expected ':' after conversion specifier"
  | .unmatched => "unmatched '\x7b' in format spec"
  | .closeExpected => "expected '\x7d' before end of string"
  | .emptyAttribute => "Empty attribute in format string"
  | .missingBracket => "Missing ']' in format string"
  | .afterBracket => "Only '.' or '[' may follow ']' in format field specifier"
  | .tooManyDigits => "Too many decimal digits in format string"
  | .recursion => "Max string recursion exceeded"

/-- A name up to the character that ends it, which is kept. Brackets hide what is inside them. -/
def takeName : (inBrackets : Bool) → List Char → Except Fault (List Char × List Char)
  | _, [] => .error .closeExpected
  | true, c :: rest => do
    let (name, left) ← takeName (c != ']') rest
    return (c :: name, left)
  | false, c :: rest =>
    if c == '\x7b' then .error .openInName
    else if c == '\x7d' || c == ':' || c == '!' then .ok ([], c :: rest)
    else do
      let (name, left) ← takeName (c == '[') rest
      return (c :: name, left)

/-- A specification up to the brace that closes the field. -/
def takeSpec : (depth : Nat) → List Char → Except Fault (List Char × List Char)
  | _, [] => .error .unmatched
  | depth, c :: rest =>
    if c == '\x7d' && depth == 0 then .ok ([], rest)
    else do
      let (spec, left) ←
        takeSpec (if c == '\x7b' then depth + 1 else if c == '\x7d' then depth - 1 else depth) rest
      return (c :: spec, left)

def specified (name : List Char) (conversion : Option Char) (cs : List Char) :
    Except Fault (Field × List Char) := do
  let (spec, rest) ← takeSpec 0 cs
  return (⟨name, conversion, spec, spec.contains '\x7b'⟩, rest)

/-- A field after its opening brace, and what follows its closing one. -/
def takeField (cs : List Char) : Except Fault (Field × List Char) := do
  let (name, rest) ← takeName false cs
  match rest with
  | '\x7d' :: rest => return (⟨name, none, [], false⟩, rest)
  | ':' :: rest => specified name none rest
  | _ :: [] => .error .endsInConversion
  | _ :: c :: '\x7d' :: rest => return (⟨name, some c, [], false⟩, rest)
  | _ :: c :: ':' :: rest => specified name (some c) rest
  | _ :: _ :: [] => .error .unmatched
  | _ :: _ :: _ => .error .colonExpected
  | [] => .error .closeExpected

/-- The plain text up to the next field, and the rest from that field's opening brace on. -/
def takeText : List Char → Except Fault (List Char × List Char)
  | [] => .ok ([], [])
  | '\x7b' :: '\x7b' :: rest => do
    let (text, left) ← takeText rest
    return ('\x7b' :: text, left)
  | '\x7d' :: '\x7d' :: rest => do
    let (text, left) ← takeText rest
    return ('\x7d' :: text, left)
  | ['\x7b'] => .error .singleOpen
  | '\x7b' :: rest => .ok ([], '\x7b' :: rest)
  | '\x7d' :: _ => .error .singleClose
  | c :: rest => do
    let (text, left) ← takeText rest
    return (c :: text, left)

/-- A number of digits only, or none. -/
def number? (cs : List Char) : Except Fault (Option Nat) :=
  if cs.isEmpty then .ok none
  else match cs.mapM Text.decimal? with
    | some digits =>
      let n := digits.foldl (fun n d => n * 10 + d) 0
      if n ≥ Nat.pow 2 63 then .error .tooManyDigits else .ok (some n)
    | none => .ok none

/-- A step from a value to a part of it. -/
inductive Step where
  | attribute (name : String)
  | position (n : Nat)
  | item (key : String)

/-- The next step of a field's name. -/
def takeStep (cs : List Char) : Except Fault (Option (Step × List Char)) :=
  match cs with
  | [] => .ok none
  | '.' :: rest =>
    let name := rest.takeWhile (fun c => c != '.' && c != '[')
    if name.isEmpty then .error .emptyAttribute
    else .ok (some (.attribute (String.ofList name), rest.drop name.length))
  | '[' :: rest =>
    let name := rest.takeWhile (· != ']')
    match rest.drop name.length with
    | [] => .error .missingBracket
    | _ :: left => do
      if name.isEmpty then .error .emptyAttribute
      match ← number? name with
      | some n => return some (.position n, left)
      | none => return some (.item (String.ofList name), left)
  | _ => .error .afterBracket

/-- How fields without a name count: not decided yet, by themselves from some number on, or not at
all. -/
inductive Numbering where
  | open
  | automatic (next : Nat)
  | manual

/-- The arguments of a template. -/
structure Args where
  positional : List Value
  named : List (String × Value)

def ofFault (found : Except Fault α) : Act α :=
  match found with
  | .ok a => return a
  | .error fault => Act.valueError fault.message

/-- The part of a value that the rest of a field's name leads to. -/
def walk (field : Value → String → Act Value) : (fuel : Nat) → Value → List Char → Act Value
  | 0, v, _ => return v
  | fuel + 1, v, cs => do
    match ← ofFault (takeStep cs) with
    | none => return v
    | some (.attribute name, rest) => walk field fuel (← field v name) rest
    | some (.position n, rest) => walk field fuel (← Act.subscript v (.int n)) rest
    | some (.item key, rest) => walk field fuel (← Act.subscript v (.str key)) rest

def positional (args : Args) (n : Nat) : Act Value := do
  match args.positional[n]? with
  | some v => return v
  | none => Act.fail .index s!"Replacement index {n} out of range for positional args tuple"

/-- The argument that a name begins with, and the numbering afterwards. -/
def argument (args : Args) (numbering : Numbering) (name : List Char) :
    Act (Value × Numbering) := do
  let number ← ofFault (number? name)
  match number, name.isEmpty, numbering with
  | _, true, .manual =>
    Act.valueError
      "cannot switch from manual field specification to automatic field numbering"
  | _, true, .automatic n => return (← positional args n, .automatic (n + 1))
  | _, true, .open => return (← positional args 0, .automatic 1)
  | some _, false, .automatic _ =>
    Act.valueError
      "cannot switch from automatic field numbering to manual field specification"
  | some n, false, _ => return (← positional args n, .manual)
  | none, false, numbering =>
    let key := String.ofList name
    match args.named.find? (·.1 == key) with
    | some (_, v) => return (v, numbering)
    | none => Act.failWith .key [.str key]

/-- Characters that are not plain ones are escaped. -/
def asciiText (s : String) : String :=
  String.ofList (s.toList.flatMap (fun c =>
    if c.toNat < 128 then [c]
    else if c.toNat < 0x100 then '\\' :: 'x' :: Text.hex 2 c.toNat
    else if c.toNat < 0x10000 then '\\' :: 'u' :: Text.hex 4 c.toNat
    else '\\' :: 'U' :: Text.hex 8 c.toNat))

def convert (v : Value) : Option Char → Act Value
  | none => return v
  | some 's' => Value.str <$> Act.plain v
  | some 'r' => Value.str <$> Act.quoted v
  | some 'a' => do return .str (asciiText (← Act.quoted v))
  | some c =>
    if 32 < c.toNat && c.toNat < 127 then
      Act.valueError s!"Unknown conversion specifier {c}"
    else
      Act.valueError ("Unknown conversion specifier \\x" ++
        String.ofList (Nat.toDigits 16 c.toNat))

/-- The text of a template, given how specifications are filled in. -/
def fillWith (read : Value → String → Act Value)
    (inner : Numbering → List Char → Act (String × Numbering)) (args : Args) :
    (fuel : Nat) → Numbering → List Char → Act (String × Numbering)
  | 0, numbering, _ => return ("", numbering)
  | fuel + 1, numbering, cs => do
    let (text, rest) ← ofFault (takeText cs)
    match rest with
    | [] => return (String.ofList text, numbering)
    | _ :: rest =>
      let (field, rest) ← ofFault (takeField rest)
      let first := field.name.takeWhile (fun c => c != '.' && c != '[')
      let (v, numbering) ← argument args numbering first
      let v ← walk read (field.name.length + 1) v (field.name.drop first.length)
      let v ← convert v field.conversion
      let (spec, numbering) ←
        if field.nested then inner numbering field.spec
        else pure (String.ofList field.spec, numbering)
      let shown ← layoutValue v spec
      let (more, numbering) ← fillWith read inner args fuel numbering rest
      return (String.ofList text ++ shown ++ more, numbering)

/-- The text of a template whose specifications may nest to a depth. -/
def fill (read : Value → String → Act Value) (args : Args) :
    (depth : Nat) → Numbering → List Char → Act (String × Numbering)
  | 0, _, _ => Act.valueError Fault.recursion.message
  | depth + 1, numbering, cs =>
    fillWith read (fill read args depth) args (cs.length + 1) numbering cs

end Template

/-- A template with its fields replaced. -/
def formatTemplate (read : Value → String → Act Value) (template : String) (args : List Value)
    (named : List (String × Value)) : Act String := do
  return (← Template.fill read ⟨args, named⟩ 2 .open template.toList).1

end Workflow.Script
