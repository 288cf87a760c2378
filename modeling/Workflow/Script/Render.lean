import Workflow.Number.Limit
import Workflow.Script.Equality
import Workflow.Text.Quoted

/-! The written form of values. In quoted form a value is written as a script would write it; in plain
form texts, errors and dates are written without marks. -/

namespace Workflow.Script

inductive RenderFault where
  | tooDeep
  /-- A whole number with more digits than are ever written. -/
  | longNumber
  deriving DecidableEq, Repr

def integerText (n : Int) : Except RenderFault String :=
  if Number.isLong n then .error .longNumber else .ok (Number.intText n)

def boolText (b : Bool) : String := if b then "True" else "False"

def commas (parts : List String) : String := ", ".intercalate parts

/-- A row in round brackets; a single item keeps its comma. -/
def tupleText (parts : List String) : String :=
  match parts with
  | [part] => s!"({part},)"
  | parts => s!"({commas parts})"

def rangeText (start stop step : Int) : String :=
  if step == 1 then s!"range({start}, {stop})" else s!"range({start}, {stop}, {step})"

def momentText (m : Moment) : String :=
  let time := [m.hour, m.minute] ++ (if m.second == 0 && m.micros == 0 then [] else [m.second]) ++
    (if m.micros == 0 then [] else [m.micros])
  let parts := [m.date.year, m.date.month, m.date.day] ++ time
  let zone := match m.offset with
    | none => ""
    | some 0 => ", tzinfo=datetime.timezone.utc"
    | some minutes =>
      let days := if minutes < 0 then "days=-1, " else ""
      let seconds := (if minutes < 0 then minutes + 1440 else minutes) * 60
      s!", tzinfo=datetime.timezone(datetime.timedelta({days}seconds={seconds}))"
  s!"datetime.datetime({commas (parts.map toString)}{zone})"

def dateText (d : Date) : String := s!"datetime.date({d.year}, {d.month}, {d.day})"

/-- A place in memory, for objects that are written by it. -/
def placeText (a : Addr) : String := s!"0x{String.ofList (Nat.toDigits 16 (0x7f0000000000 + 16 * a))}"

/-- What stands for an object inside its own written form. -/
def Object.again : Object → String
  | .list _ => "[...]"
  | .dict _ => "{...}"
  | .set _ => "set(...)"
  | .record .namespace _ => "namespace(...)"
  | _ => "..."

/-- The written form of an error that is asked for its message. -/
def errorText (write : Bool → Value → Except RenderFault String) (c : ErrorClass)
    (args : List Value) : Except RenderFault String := do
  match args with
  | [] => return ""
  | [arg] => if c.isA .key then write true arg else write false arg
  | number :: reason :: rest =>
    if c.isSystem then
      let place ← match rest with
        | file :: _ => (write true file).map (": " ++ ·)
        | [] => pure ""
      return s!"[Errno {← write false number}] {← write false reason}{place}"
    else return s!"({commas (← args.mapM (write true))})"

def fieldTexts (write : Value → Except RenderFault String) (fields : List (String × Value)) :
    Except RenderFault (List String) :=
  fields.mapM (fun (name, v) => (write v).map (fun s => s!"{name}={s}"))

def entryTexts (write : Value → Except RenderFault String) (entries : List (Value × Value)) :
    Except RenderFault (List String) :=
  entries.mapM (fun (key, v) => do return s!"{← write key}: {← write v}")

/-- The part of an entry that a view shows. -/
def Part.of : Part → Value × Value → Value
  | .keys, (key, _) => key
  | .values, (_, v) => v
  | .items, (key, v) => .tuple [key, v]

/-- The written form of an object, given that of values in quoted and in plain form. -/
def Object.write (h : Heap) (a : Addr) (write : Bool → Value → Except RenderFault String)
    (quoted : Bool) : Object → Except RenderFault String
  | .list items => do return s!"[{commas (← items.toList.mapM (write true))}]"
  | .dict entries => do return "\x7b" ++ commas (← entryTexts (write true) entries.toList) ++ "\x7d"
  | .set items =>
    if items.isEmpty then .ok "set()"
    else do return "\x7b" ++ commas (← (Members.walk items).mapM (write true)) ++ "\x7d"
  | .record .namespace fields => do
    return s!"namespace({commas (← fieldTexts (write true) fields.toList)})"
  | .record k fields => do
    let shown := k.fieldNames.map (fun n => (n, (Fields.get? fields n).getD .nothing))
    return s!"{k.kind.name}({commas (← fieldTexts (write true) shown)})"
  | .error c args _ =>
    if quoted then do return s!"{c.name}({commas (← args.mapM (write true))})"
    else errorText write c args
  | .function f => .ok s!"<function {f.name} at {placeText a}>"
  | .supplied f => .ok s!"<function {f.name} at {placeText a}>"
  | .frame _ => .ok s!"<namespace at {placeText a}>"
  | .awaitable f _ => .ok s!"<coroutine object {f.name} at {placeText a}>"
  | .iterator (.generator _) => .ok s!"<generator object <genexpr> at {placeText a}>"
  | .iterator it => .ok s!"<{it.kind.name} object at {placeText a}>"
  | .view part source =>
    match h.object source with
    | .dict entries => do
      return s!"{part.kind.name}([{commas (← (entries.toList.map part.of).mapM (write true))}])"
    | _ => .ok s!"{part.kind.name}([])"

/-- The written form of a value at some depth, inside the objects that are being written. -/
def Value.write (h : Heap) : (depth : Nat) → (inside : List Addr) → (quoted : Bool) → Value →
    Except RenderFault String
  | 0, _, _, _ => .error .tooDeep
  | depth + 1, inside, quoted, v =>
    match v with
    | .nothing => .ok "None"
    | .ellipsis => .ok "Ellipsis"
    | .bool b => .ok (boolText b)
    | .int n => integerText n
    | .float x => .ok (Number.floatText x)
    | .str s => .ok (if quoted then Text.quote s else s)
    | .tuple items => do return tupleText (← items.mapM (Value.write h depth inside true))
    | .range start stop step => .ok (rangeText start stop step)
    | .slice lower upper step => do
      return s!"slice({commas (← [lower, upper, step].mapM (Value.write h depth inside true))})"
    | .date d => .ok (if quoted then dateText d else d.isoText)
    | .moment m => .ok (if quoted then momentText m else m.text " ")
    | .type c => .ok c.text
    | .builtin f => .ok s!"<built-in function {f.name}>"
    | .method m => .ok s!"<method '{m.home.2}' of '{m.home.1.name}' objects>"
    | .bound m receiver =>
      let place := match receiver with
        | .ref a => placeText a
        | _ => placeText 0
      .ok s!"<built-in method {m.home.2} of {receiver.typeName h} object at {place}>"
    | .ref a =>
      if inside.contains a then .ok (h.object a).again
      else (h.object a).write h a (Value.write h depth (a :: inside)) quoted

def Value.quoted (h : Heap) (v : Value) : Except RenderFault String := v.write h depthLimit [] true

def Value.plain (h : Heap) (v : Value) : Except RenderFault String := v.write h depthLimit [] false

end Workflow.Script
