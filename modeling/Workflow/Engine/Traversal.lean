import Workflow.Engine.Host

/-! Traversals of schemas. A position is a row of cursors, one for each row of items that is under way,
from the outermost one inwards. A traversal goes on from a position, and when it halts it gives the
position of what halted it. -/

namespace Workflow.Engine
open Script (Value)

/-- How the traversal of a row ends. -/
inductive Ending where
  | passed
  | signalled (signal : Signal)
  | halted (halt : Halt) (cursors : List Int)
  deriving Repr

structure Report where
  stepId : String
  ending : Ending
  deriving Repr

/-- What a row hands from item to item: input that no step has taken yet, and the last step touched. -/
structure Progress where
  supplied : Value
  stepId : String
  deriving Repr

/-- How an item, or a part of a row, leaves the row. -/
inductive Verdict where
  | onward (progress : Progress)
  | leave (report : Report)
  deriving Repr

/-- The report of a row that is left in some way. -/
def Verdict.report : Verdict → Report
  | .onward p => ⟨p.stepId, .passed⟩
  | .leave r => r

/-- What is told of the end of a row. -/
def Report.closing (level : Level) (outer : List Int) (r : Report) : Event × View :=
  let finished := level != .nested
  match r.ending with
  | .passed => (.ended level, { cursors := outer, stepId := r.stepId, finished })
  | .signalled signal =>
    (.ended level, { cursors := outer, stepId := r.stepId, finished, signal := some signal })
  | .halted halt cursors =>
    (.interrupted level, { cursors := outer ++ cursors, stepId := r.stepId, halt := some halt })

/-- A report of the item under a cursor, as a report of the item's row. -/
def Report.under (cursor : Int) (r : Report) : Report :=
  match r.ending with
  | .halted halt cursors => { r with ending := .halted halt (cursor :: cursors) }
  | _ => r

/-- The later one of two steps, either of which may be missing. -/
def lastStep (earlier later : String) : String := if later.isEmpty then earlier else later

section
variable {σ : Type} (host : Host σ)

def check (here : List Int) (stepId : String) (role : Role) (c : Condition) :
    Work σ (Except Halt Bool) := do
  match ← host.check role c here with
  | .error halt => return .error halt
  | .ok passed => do
    host.emit (.checked role c passed) { cursors := here, stepId }
    return .ok passed

/-- Runs an item whose gate, if it has one, holds. -/
def whenOpen (here : List Int) (p : Progress) (gate : Option Condition)
    (act : Work σ Verdict) : Work σ Verdict := do
  match gate with
  | none => act
  | some c =>
    match ← check host here p.stepId .gate c with
    | .error halt => return .leave ⟨p.stepId, .halted halt []⟩
    | .ok false => return .onward p
    | .ok true => act

def runMarker (here : List Int) (p : Progress) (signal : Signal) (test : Condition) :
    Work σ Verdict := do
  match ← check host here p.stepId (.marker signal) test with
  | .error halt => return .leave ⟨p.stepId, .halted halt []⟩
  | .ok false => return .onward p
  | .ok true => return .leave ⟨p.stepId, .signalled signal⟩

def runStep (here : List Int) (p : Progress) (id : String) (literal : Value) : Work σ Verdict := do
  match ← host.invoke id literal p.supplied here with
  | .done => do
    host.emit (.step id) { cursors := here, stepId := id }
    return .onward ⟨.nothing, id⟩
  | .awaits halt => do
    host.emit (.step id) { cursors := here, stepId := id, halt := some halt }
    return .leave ⟨id, .halted halt []⟩
  | .failed halt => do
    host.emit (.step id) { cursors := here, stepId := id, halt := some halt }
    return .leave ⟨id, .halted halt []⟩

/-- Walks over a row from a cursor on. `walk` takes the items from a cursor on, of which it skips some
first. A cursor below zero counts from the end of the row, and the whole row follows. -/
def walkRow (size : Nat)
    (walk : (cursor : Int) → (skip : Nat) → (deeper : List Int) → Progress → Work σ Verdict)
    (start : Int) (deeper : List Int) (p : Progress) : Work σ Verdict := do
  if start < 0 then
    match ← walk start (start + size).toNat deeper p with
    | .onward q => walk 0 0 [] q
    | .leave r => return .leave r
  else walk start start.toNat deeper p

/-- Traverses a row from a position in it, and tells of its start and of its end. -/
def runRow (level : Level) (outer resume : List Int) (supplied : Value) (size : Nat)
    (walk : (cursor : Int) → (skip : Nat) → (deeper : List Int) → Progress → Work σ Verdict) :
    Work σ Report := do
  let start := resume.headD 0
  host.emit (.opened level) { cursors := outer ++ (start :: resume.tail) }
  let verdict ← walkRow size walk start resume.tail ⟨supplied, ""⟩
  let closing := verdict.report.closing level outer
  host.emit closing.1 closing.2
  return verdict.report

/-- What the row around a block makes of its report. -/
def leaveBlock (p : Progress) (r : Report) : Verdict :=
  match r.ending with
  | .passed => .onward ⟨.nothing, lastStep p.stepId r.stepId⟩
  | .signalled signal => .leave ⟨lastStep p.stepId r.stepId, .signalled signal⟩
  | .halted halt cursors => .leave ⟨r.stepId, .halted halt cursors⟩

/-- Checks the test of a loop, unless one of its iterations is gone on with. -/
def testRound (here : List Int) (stepId : String) (test : Condition) (resume : List Int) :
    Work σ (Except Halt Bool) :=
  if resume.isEmpty then check host here stepId .test test else return .ok true

/-- Repeats a body of some size while a test holds. The test comes before each iteration, except for
one that is resumed. When the test itself fails, the position lies behind the end of the body. -/
def iterate (here : List Int) (test : Condition) (size : Nat)
    (body : (resume : List Int) → (supplied : Value) → Work σ Report) :
    (fuel : Nat) → (resume : List Int) → Progress → Work σ Verdict
  | 0, _, _ => throw (.stopped .exhausted)
  | fuel + 1, resume, p => do
    match ← testRound host here p.stepId test resume with
    | .error halt => return .leave ⟨p.stepId, .halted halt [(size : Int)]⟩
    | .ok false => return .onward ⟨.nothing, p.stepId⟩
    | .ok true => do
      let r ← body resume p.supplied
      match r.ending with
      | .halted halt cursors => return .leave ⟨r.stepId, .halted halt cursors⟩
      | .signalled .breakLoop => return .onward ⟨.nothing, lastStep p.stepId r.stepId⟩
      | .signalled .continueLoop =>
        iterate here test size body fuel [] ⟨.nothing, lastStep p.stepId r.stepId⟩
      | .passed => iterate here test size body fuel [] ⟨.nothing, lastStep p.stepId r.stepId⟩

mutual

/-- Runs the item at a position, or goes on inside it from the cursors that lie deeper. The gate of an
item that is gone on with does not count. -/
def runItem (fuel : Nat) (here deeper : List Int) (p : Progress) : Item → Work σ Verdict
  | .marker signal test => runMarker host here p signal test
  | .step id literal gate =>
    whenOpen host here p (if deeper.isEmpty then gate else none) (runStep host here p id literal)
  | .block items gate =>
    whenOpen host here p (if deeper.isEmpty then gate else none) do
      let r ← runRow host .nested here deeper p.supplied items.length
        (fun cursor skip inner q => runItems fuel here cursor skip inner q items)
      return leaveBlock p r
  | .loop test items gate =>
    whenOpen host here p (if deeper.isEmpty then gate else none)
      (iterate host here test items.length
        (fun resume supplied =>
          runRow host .nested here resume supplied items.length
            (fun cursor skip inner q => runItems fuel here cursor skip inner q items))
        fuel deeper p)

/-- Runs items that follow one another in a row, of which some are skipped and the first of the others
is at a cursor. -/
def runItems (fuel : Nat) (outer : List Int) (cursor : Int) (skip : Nat) (deeper : List Int)
    (p : Progress) : List Item → Work σ Verdict
  | [] => return .onward p
  | item :: rest =>
    match skip with
    | skip + 1 => runItems fuel outer cursor skip deeper p rest
    | 0 => do
      match ← runItem fuel (outer ++ [cursor]) deeper p item with
      | .onward q => runItems fuel outer (cursor + 1) 0 [] q rest
      | .leave r => return .leave (r.under cursor)

end

/-- Traverses a schema from a position; none stands for its start. -/
def run (fuel : Nat) (level : Level) (schema : Schema) (position : List Int) (supplied : Value) :
    Work σ Report :=
  runRow host level [] position supplied schema.length
    (fun cursor skip deeper p => runItems host fuel [] cursor skip deeper p schema)

end

end Workflow.Engine
