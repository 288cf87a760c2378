import Workflow.Engine.Traversal

/-! Traversals with one stack of cursors, as they would be written with a list that every row shares. A row pushes a
cursor of its own unless it finds one there, moves it from item to item, and takes it off again when it ends; when it
halts, the cursors stay. Such a traversal does what the traversal does that hands positions on. -/

namespace Workflow.Engine
open Script (Value)

/-- A call for the row of a block, or for an iteration of a loop, with the stack that it finds. -/
structure Entry where
  level : Nat
  stack : List Int
  fresh : Bool
  deriving Repr, DecidableEq

/-- Above a row that is not gone on with lies no cursor of anything earlier. -/
def Entry.Lawful (e : Entry) : Prop := e.fresh = true → e.stack.length = e.level

structure Stacked (σ : Type) where
  world : σ
  stack : List Int
  entries : List Entry := []

/-- Work that leaves the stack alone. -/
def Stacked.lift (x : Work σ α) : Work (Stacked σ) α := fun s =>
  match x s.world with
  | .ok a w => .ok a { s with world := w }
  | .error fault w => .error fault { s with world := w }

def Host.stacked (host : Host σ) : Host (Stacked σ) where
  check role c place := Stacked.lift (host.check role c place)
  invoke id literal supplied place := Stacked.lift (host.invoke id literal supplied place)
  emit event v := Stacked.lift (host.emit event v)

/-- How the row at a level of the stack is told of. -/
def levelAt (resumed : Bool) : Nat → Level
  | 0 => if resumed then .resumed else .started
  | _ + 1 => .nested

namespace Report

/-- The position of what halted the row, if it was halted. -/
def cursors? (r : Report) : Option (List Int) :=
  match r.ending with
  | .halted _ cursors => some cursors
  | _ => none

/-- A report whose position is on the stack. -/
def bare (r : Report) : Report :=
  match r.ending with
  | .halted halt _ => { r with ending := .halted halt [] }
  | _ => r

end Report

namespace Verdict

def cursors? : Verdict → Option (List Int)
  | .onward _ => none
  | .leave r => r.cursors?

def bare : Verdict → Verdict
  | .onward p => .onward p
  | .leave r => .leave r.bare

end Verdict

namespace Stacked

def onStack (act : List Int → Work (Stacked σ) α) : Work (Stacked σ) α := fun s => act s.stack s

def restack (change : List Int → List Int) : Work (Stacked σ) Unit := fun s =>
  .ok () { s with stack := change s.stack }

def push (cursor : Int) : Work (Stacked σ) Unit := restack (· ++ [cursor])

def pop : Work (Stacked σ) Unit := restack List.dropLast

def point (level : Nat) (cursor : Int) : Work (Stacked σ) Unit := restack (·.set level cursor)

/-- Sees to it that there is a cursor at a level. -/
def hold (level : Nat) : Work (Stacked σ) Unit := onStack fun stack =>
  if stack.length ≤ level then push 0 else pure ()

/-- Takes the cursor of a row off again, unless the row was halted. -/
def release (verdict : Verdict) : Work (Stacked σ) Unit :=
  if verdict.cursors?.isNone then pop else pure ()

def enter (level : Nat) (fresh : Bool) : Work (Stacked σ) Unit := fun s =>
  .ok () { s with entries := s.entries ++ [⟨level, s.stack, fresh⟩] }

section
variable (host : Host σ) (resumed : Bool)

/-- Traverses the row at a level of the stack. What lies above that level on the stack belongs to the item that the
row goes on with. -/
def runRow (level : Nat) (supplied : Value) (size : Nat)
    (walk : (cursor : Int) → (skip : Nat) → (resuming : Bool) → Progress → Work (Stacked σ) Verdict) :
    Work (Stacked σ) Report := do
  hold level
  onStack fun stack => do
    host.stacked.emit (.opened (levelAt resumed level)) { cursors := stack }
    let verdict ← walkRow size (fun cursor skip deeper p => walk cursor skip (!deeper.isEmpty) p)
      (stack.getD level 0) (stack.drop (level + 1)) ⟨supplied, ""⟩
    release verdict
    onStack fun stack => do
      let closing := verdict.report.closing (levelAt resumed level) stack
      host.stacked.emit closing.1 closing.2
      return verdict.report

def testRound (stepId : String) (test : Condition) (resuming : Bool) : Work (Stacked σ) (Except Halt Bool) :=
  if resuming then return .ok true else onStack (check host.stacked · stepId .test test)

/-- Repeats a body while a test holds. When the test itself fails, a cursor is pushed that lies behind the end of
the body. -/
def iterate (test : Condition) (size : Nat) (body : (resuming : Bool) → (supplied : Value) → Work (Stacked σ) Report) :
    (fuel : Nat) → (resuming : Bool) → Progress → Work (Stacked σ) Verdict
  | 0, _, _ => throw (.stopped .exhausted)
  | fuel + 1, resuming, p => do
    match ← testRound host p.stepId test resuming with
    | .error halt => do
      push size
      return .leave ⟨p.stepId, .halted halt []⟩
    | .ok false => return .onward ⟨.nothing, p.stepId⟩
    | .ok true => do
      let r ← body resuming p.supplied
      match r.ending with
      | .halted halt cursors => return .leave ⟨r.stepId, .halted halt cursors⟩
      | .signalled .breakLoop => return .onward ⟨.nothing, lastStep p.stepId r.stepId⟩
      | .signalled .continueLoop => iterate test size body fuel false ⟨.nothing, lastStep p.stepId r.stepId⟩
      | .passed => iterate test size body fuel false ⟨.nothing, lastStep p.stepId r.stepId⟩

mutual

/-- Runs an item whose cursor is on the stack, at a level below. -/
def runItem (fuel : Nat) (level : Nat) (resuming : Bool) (p : Progress) : Item → Work (Stacked σ) Verdict
  | .marker signal test => onStack (runMarker host.stacked · p signal test)
  | .step id literal gate =>
    onStack fun here => whenOpen host.stacked here p (if resuming then none else gate)
      (runStep host.stacked here p id literal)
  | .block items gate =>
    onStack fun here => whenOpen host.stacked here p (if resuming then none else gate) do
      enter (level + 1) !resuming
      let r ← runRow host resumed (level + 1) p.supplied items.length
        (fun cursor skip resuming q => runItems fuel (level + 1) cursor skip resuming q items)
      return leaveBlock p r
  | .loop test items gate =>
    onStack fun here => whenOpen host.stacked here p (if resuming then none else gate)
      (iterate host test items.length
        (fun resuming supplied => do
          enter (level + 1) !resuming
          runRow host resumed (level + 1) supplied items.length
            (fun cursor skip resuming q => runItems fuel (level + 1) cursor skip resuming q items))
        fuel resuming p)

def runItems (fuel : Nat) (level : Nat) (cursor : Int) (skip : Nat) (resuming : Bool) (p : Progress) :
    List Item → Work (Stacked σ) Verdict
  | [] => return .onward p
  | item :: rest =>
    match skip with
    | skip + 1 => runItems fuel level cursor skip resuming p rest
    | 0 => do
      point level cursor
      match ← runItem fuel level resuming p item with
      | .onward q => runItems fuel level (cursor + 1) 0 false q rest
      | .leave r => return .leave r

end

/-- Traverses items at a level of the stack, from where the stack stands. -/
def advance (fuel : Nat) (level : Nat) (items : List Item) (supplied : Value) : Work (Stacked σ) Report :=
  runRow host resumed level supplied items.length
    (fun cursor skip resuming p => runItems host resumed fuel level cursor skip resuming p items)

end

end Stacked

end Workflow.Engine
