import Workflow.World

/-! Delivery of notices to listeners. A listener that fails is logged and changes nothing else. -/

namespace Workflow
open Script (Value)

/-- How listeners take notices: whether the listener failed, and the world that it leaves. -/
abbrev Audience := (listener : Nat) → Notice → World → Bool × World

namespace Trace

/-- Attaches a listener once more, behind all others. -/
def attach (listener : Nat) (w : World) : World := { w with listeners := w.listeners ++ [listener] }

/-- Detaches a listener where it was attached first. One that is not attached stays so. -/
def detach (listener : Nat) (w : World) : World :=
  { w with listeners := w.listeners.erase listener }

def deliverTo (audience : Audience) (n : Notice) : List Nat → Job Unit
  | [] => return ()
  | listener :: rest => do
    let (failed, w) := audience listener n (← get)
    set w
    if failed then
      Job.log .error "stepflow.workflow.trace" s!"Trace listener failed on '{n.event}'"
    deliverTo audience n rest

/-- Delivers a notice to those attached when it is sent, and last to the listener of the call. -/
def deliver (audience : Audience) (extra : Option Nat) (n : Notice) : Job Unit := do
  deliverTo audience n ((← get).listeners ++ extra.toList)

/-- The text of what a notice is about: a condition with its answer, or the payload itself. -/
def payloadText (payload : Value) : Job String := do
  let h := (← get).heap
  let entries := (payload.entries? h).getD #[]
  match Script.Entries.named? entries "fn" with
  | none => Job.shown payload
  | some f => do
    let name ← match f with
      | .str s => pure s
      | f =>
        match f.calledName? h with
        | some name => pure name
        | none => Job.act (Script.Act.quoted f)
    let answer ← Job.shown ((Script.Entries.named? entries "result").getD .nothing)
    return s!"{name} -> {answer}"

/-- A mark for a time. The time itself, which is never twice the same, is left out. -/
def timeText (time : Value) : Job String := do
  match time with
  | .nothing => return ""
  | .float _ => return " (MS ms)"
  | time =>
    if time.int?.isSome then return " (MS ms)"
    else Job.act (Script.Act.typeError "a time is a number")

/-- Writes a notice to the log. A notice without a result cannot be written. -/
def logNotice (n : Notice) : Job Unit := do
  let payload ← payloadText n.payload
  match n.result with
  | none => Job.act (Script.Act.fail .attribute "no result")
  | some r =>
    let schema ← Job.shown r.schema
    let indexes ← Job.shown r.indexes
    let timing ← timeText n.time
    Job.log .debug "stepflow.trace" s!"[{schema}] {n.event}: {payload} indexes={indexes}{timing}"

/-- The listener that writes notices to the log. Of a notice that cannot be written nothing is left. -/
def logging (n : Notice) (w : World) : Bool × World :=
  match logNotice n w with
  | .ok _ w => (false, w)
  | .error _ _ => (true, w)

end Trace

end Workflow
