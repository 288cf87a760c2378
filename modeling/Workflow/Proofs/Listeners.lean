import Mathlib.Data.List.Basic
import Workflow.Proofs.Deafness
import Workflow.Proofs.Observers
import Workflow.Proofs.Traces

/-! Listening to calls. Whoever observes a call, and whether he fails or not, the call comes to the same and tells of the
same. Everything that it tells of reaches all who are attached, in order, and last the listener of the call. -/

namespace Workflow
open Script (Act Heap Value)
open Engine (Event HostsAgree Level View answered answered_inj)

namespace Call

/-- The same call, with another listener of its own. -/
def heardBy (listener : Option Nat) (call : Call) : Call := { call with listener }

/-- What is told of an event, before it is delivered to anybody. -/
def announce (call : Call) (event : Event) (v : View) : Job Notice := do
  call.logEnd event v
  let result ← Job.act (call.result v)
  let payload ← Job.act (call.payload event)
  return { event := event.name, payload, result := some result, time := if event.isTimed then .float 0.0 else .nothing }

theorem emit_eq (audience : Audience) (call : Call) (event : Event) (v : View) :
    call.emit audience event v = call.announce event v >>= Trace.deliver audience call.listener := by
  simp only [emit, announce, bind_assoc, pure_bind]

theorem announce_agree {R : World → World → Prop} (hides : Hides R) (call : Call) (event : Event) (v : View) :
    Engine.Agree R (call.announce event v) (call.announce event v) :=
  (hides.logEnd call event v).bind (fun _ => (hides.act _).bind (fun _ => (hides.act _).bind (fun _ => .pure _)))

/-- The notice of a moment, if there is one, and the world in which it is delivered. -/
def announced? (call : Call) : Engine.Moment World → Option (Notice × World)
  | .done _ => none
  | .told event v w _ | .missed event v w _ _ =>
    match call.announce event v w with
    | .ok n w' => some (n, w')
    | .error _ _ => none

theorem emit_missed (audience : Audience) {call : Call} {event : Event} {v : View} {w w' : World} {fault : Fault}
    (failed : call.announce event v w = .error fault w') :
    call.emit audience event v w = .error fault w' ∧ call.announced? (.missed event v w fault w') = none := by
  constructor
  · simp only [emit_eq, Bind.bind, EStateM.bind, failed]
  · simp only [announced?, failed]

/-- What a call tells of in the course of some moments. -/
def announcements (call : Call) (ms : List (Engine.Moment World)) : List Announcement :=
  ms.filterMap (fun m => (call.announced? m).map (fun (n, w) => ⟨n, w.heap⟩))

section
variable {call : Call} {ms : List (Engine.Moment World)} {m : Engine.Moment World}

theorem announcements_append (ms ns : List (Engine.Moment World)) :
    call.announcements (ms ++ ns) = call.announcements ms ++ call.announcements ns := List.filterMap_append

theorem announcements_unannounced (unannounced : call.announced? m = none) : call.announcements [m] = [] := by
  simp only [announcements, List.filterMap_cons, unannounced, List.filterMap_nil, Option.map_none]

theorem announcements_announced {n : Notice} {w : World} (announced : call.announced? m = some (n, w)) :
    call.announcements [m] = [⟨n, w.heap⟩] := by
  simp only [announcements, List.filterMap_cons, announced, List.filterMap_nil, Option.map_some]

end

/-- Two traversals of a call that differ in who listens. The worlds are alike, and the same is told of in both. -/
structure Twins (call : Call) (other : Option Nat) (ls ms : List Nat) (v w : World × List (Engine.Moment World)) : Prop where
  apart : World.Apart ls ms v.1 w.1
  same : (call.heardBy other).announcements w.2 = call.announcements v.2

section
variable {audience audience' : Audience} {call : Call} {other : Option Nat} {ls ms : List Nat}
  {v v' w w' : World} {log log' : List (Engine.Moment World)} {m m' : Engine.Moment World}

theorem Twins.more (twins : Twins call other ls ms (v, log) (w, log')) (apart : World.Apart ls ms v' w')
    (same : (call.heardBy other).announcements [m'] = call.announcements [m]) :
    Twins call other ls ms (v', log ++ [m]) (w', log' ++ [m']) where
  apart := apart
  same := by rw [announcements_append, announcements_append, twins.same, same]

variable (observes : audience.Observes) (observes' : audience'.Observes)
include observes observes'

end

/-! What listeners write down. -/

/-- In the course of some moments, what the call tells of is heard by those who are attached, and then by the listener of
the call. -/
def Hears (call : Call) (text : Nat → Notice → Heap → String) (v w : World × List (Engine.Moment World)) : Prop :=
  ∃ ms, w.2 = v.2 ++ ms ∧ w.1.listeners = v.1.listeners ∧
    w.1.heard = v.1.heard ++ (call.announcements ms).flatMap (Announcement.notes text (v.1.listeners ++ call.listener.toList))

section
variable {call : Call} {text : Nat → Notice → Heap → String}

theorem Hears.silently {w w' : World} {log : List (Engine.Moment World)} {m : Engine.Moment World} (same : SameHeard w w')
    (unannounced : call.announced? m = none) : call.Hears text (w, log) (w', log ++ [m]) := by
  refine ⟨[m], rfl, same.2, ?_⟩
  rw [announcements_unannounced unannounced]
  exact same.1.trans (List.append_nil _).symm

end

end Call

/-- The same execution, of a call with another listener of its own. -/
def Execution.heardBy (listener : Option Nat) (e : Execution) : Execution := { e with call := e.call.heardBy listener }

def Beginning.heardBy (listener : Option Nat) (b : Beginning) : Beginning := { b with call := b.call.heardBy listener }

theorem Executor.run_answered {audience : Audience} {call : Call} {level : Level} {items : Schema} {position : List Int}
    {input : Value} {fuel : Nat} {w w' : World} {answer : Except Fault Engine.Report}
    (ran : Engine.run (call.host audience) fuel level items position input w = answered answer w') :
    run audience call level items position input fuel w = answered (answer.map (Execution.mk call)) w' := by
  cases answer <;> simp only [run, Bind.bind, EStateM.bind, ran] <;> rfl

namespace Request

/-- The same call, with another listener of its own. -/
def heardBy (listener : Option Nat) : Request → Request
  | .start call => .start (call.heardBy listener)
  | .resume schema state _ => .resume schema state listener
  | .goOn e => .goOn (e.heardBy listener)

/-- What a call tells of. -/
def announcements (audience : Audience) (input : Value) (fuel : Nat) (r : Request) (w : World) : List Announcement :=
  match r.opening w with
  | .ok b _ => b.call.announcements (r.moments audience input fuel w)
  | .error _ _ => []

variable {r : Request} {v w : World}

variable {audience audience' : Audience} (observes : audience.Observes) (observes' : audience'.Observes)
include observes observes'

end Request

end Workflow
