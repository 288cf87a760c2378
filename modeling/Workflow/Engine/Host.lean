import Workflow.Fault

/-! What the engine reports and what it needs of the world around it. -/

namespace Workflow.Engine
open Script (Value)

/-- Why and on what terms a call halts. The error is missing when input is awaited. -/
structure Halt where
  error : Value := .nothing
  errors : Value := .nothing
  descriptor : Value := .nothing
  expires : Value := .nothing
  deriving Repr

/-- What a step reports. -/
inductive Outcome where
  | done
  | awaits (halt : Halt)
  | failed (halt : Halt)
  deriving Repr

/-- What a condition decides. -/
inductive Role where
  | gate
  | test
  | marker (signal : Signal)
  deriving DecidableEq, Repr

/-- Which row is traversed: the outermost one of a new or of a continued call, or one inside. -/
inductive Level where
  | started
  | resumed
  | nested
  deriving DecidableEq, Repr

inductive Event where
  | opened (level : Level)
  | ended (level : Level)
  | interrupted (level : Level)
  | step (id : String)
  | checked (role : Role) (condition : Condition) (passed : Bool)
  deriving Repr

def Level.name : Level → String
  | .started => "workflow"
  | .resumed => "resume"
  | .nested => "subflow"

def Event.name : Event → String
  | .opened level => level.name ++ "-start"
  | .ended level => level.name ++ "-end"
  | .interrupted level => level.name ++ "-interrupt"
  | .step _ => "step"
  | .checked .gate _ _ => "eval-condition-fn"
  | .checked .test _ _ => "eval-while-cond"
  | .checked (.marker signal) _ _ => s!"eval-{signal.name}-fn"

/-- Whether an event tells how long something took. -/
def Event.isTimed : Event → Bool
  | .opened _ => false
  | _ => true

/-- The row under way, as those who hear of an event see it: where it stands, the last step that it
touched, and how it goes on. -/
structure View where
  cursors : List Int
  stepId : String := ""
  finished : Bool := false
  signal : Option Signal := none
  halt : Option Halt := none
  deriving Repr

abbrev Work (σ : Type) := EStateM Fault σ

/-- The world around an engine. A condition may fail in a way that can be retried, and then it halts
the call. -/
structure Host (σ : Type) where
  check : Role → Condition → (cursors : List Int) → Work σ (Except Halt Bool)
  invoke : (id : String) → (literal supplied : Value) → (cursors : List Int) → Work σ Outcome
  emit : Event → View → Work σ Unit

end Workflow.Engine
