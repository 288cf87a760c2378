import Workflow.Script.Eval

/-! Evaluators: sources are compiled once for each distinct text and evaluated against bindings. -/

namespace Workflow.Script

/-- A compiled source. Serials tell apart what was compiled at different times. -/
structure Compiled where
  serial : Nat
  program : Program

structure Evaluator where
  builtins : List (String × Value) := standardBuiltins
  cache : List (String × Compiled) := []
  /-- The next serial. -/
  next : Nat := 0

namespace Evaluator

def cached? (e : Evaluator) (source : String) : Option Compiled :=
  (e.cache.find? (·.1 == source)).map (·.2)

def isCached (e : Evaluator) (source : String) : Bool := (e.cached? source).isSome

def clear (e : Evaluator) : Evaluator := { e with cache := [] }

/-- What compiling a source gives: the evaluator that remembers it, and whether it was new. -/
structure Outcome where
  evaluator : Evaluator
  compiled : Compiled
  isNew : Bool

/-- The compiled form of a source, remembered or new. A source that fails is not remembered. -/
def compile (e : Evaluator) (source : String) : Except CompileFault Outcome :=
  match e.cached? source with
  | some compiled => .ok ⟨e, compiled, false⟩
  | none =>
    match Script.compile source with
    | .error fault => .error fault
    | .ok program =>
      let compiled := { serial := e.next, program }
      .ok ⟨{ e with cache := e.cache ++ [(source, compiled)], next := e.next + 1 }, compiled, true⟩

end Evaluator

/-- The fuel of an evaluation, far more than any evaluation that ends is expected to use. -/
def evaluationFuel : Nat := 1000000000

/-- How deep the calls of an evaluation may nest. -/
def callLimit : Nat := 900

def interpreterOn (access : Access) : Machine := machine access evaluationFuel callLimit

def interpreter : Machine := interpreterOn .standard

/-- Names for an evaluation: the text keys of some entries. -/
def namesOf (entries : Entries) : List (String × Value) :=
  entries.toList.filterMap (fun (key, v) => match key with
    | .str name => if name == "__builtins__" then none else some (name, v)
    | _ => none)

/-- Runs a program on bindings, in a namespace of its own, with some access to attributes. -/
def evaluateOn (access : Access) (builtins : List (String × Value)) (program : Program)
    (bindings : Entries) : Act Value := do
  let scope ← Act.alloc (.frame { kind := .module, values := namesOf bindings, builtins })
  runProgram (interpreterOn access) scope program

def evaluate (builtins : List (String × Value)) (program : Program) (bindings : Entries) :
    Act Value :=
  evaluateOn .standard builtins program bindings

/-- Calls a value with arguments. -/
def callValue (f : Value) (args : List Value) : Act Value := interpreter.call f args []

/-- The value that another one promises, if it has to be waited for. -/
def awaited (v : Value) : Act Value := await interpreter v

/-- Text keys for the keys of a mapping. -/
def textEntries (found : Entries) : List (Value × Value) → Act Entries
  | [] => return found
  | (key, v) :: rest => do
    textEntries (Entries.insert found (.str (← Act.plain key)) v) rest

/-- The bindings of conditions: the keys of a mapping or the attributes of an object by name, and the
context itself as `ctx`. -/
def contextBindings (context : Value) : Act Entries := do
  let found ← match context with
    | .ref a =>
      match ← Act.object a with
      | .dict entries => textEntries #[] entries.toList
      | .record _ fields => pure (fields.map (fun (name, v) => (Value.str name, v)))
      | .error _ _ fields => pure (fields.map (fun (name, v) => (Value.str name, v)))
      | _ => pure #[]
    | _ => pure #[]
  return Entries.insert found (.str "ctx") context

end Workflow.Script
