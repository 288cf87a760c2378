import Workflow.Proofs.Calls
import Workflow.Proofs.Openings

/-! Telling of events. Listeners cannot make it fail, so all that can fail is the log of an interrupted call,
whose error may be one that cannot be written. -/

namespace Workflow
open Script (Value)
open Engine (Event View)

def Audience.silent : Audience := fun _ _ w => (false, w)

theorem Trace.deliverTo_ok (audience : Audience) (n : Notice) (listeners : List Nat) (w : World) :
    ∃ w', Trace.deliverTo audience n listeners w = .ok () w' := by
  induction listeners generalizing w with
  | nil => exact ⟨w, rfl⟩
  | cons listener rest ih =>
    simp only [Trace.deliverTo, Bind.bind, EStateM.bind, Script.get_result, Script.set_result]
    split
    · exact ih _
    · exact ih _

namespace Call
variable {audience : Audience} {call : Call} {id : String}

theorem emit_of_logEnd {event : Event} {v : View} {w w₁ : World} (logged : call.logEnd event v w = .ok () w₁) :
    ∃ w', call.emit audience event v w = .ok () w' := by
  obtain ⟨result, w₂, made⟩ : ∃ result w₂, Job.act (call.result v) w₁ = .ok result w₂ := ⟨_, _, rfl⟩
  obtain ⟨payload, w₃, paid⟩ : ∃ payload w₃, Job.act (call.payload event) w₂ = .ok payload w₃ := by
    cases event <;> exact ⟨_, _, rfl⟩
  obtain ⟨w', delivered⟩ := Trace.deliverTo_ok audience
    { event := event.name, payload, result := some result
      time := if event.isTimed then .float 0.0 else .nothing } (w₃.listeners ++ call.listener.toList) w₃
  refine ⟨w', ?_⟩
  simp only [emit, Bind.bind, EStateM.bind, logged, made, paid, Trace.deliver, Script.get_result]
  exact delivered

theorem logEnd_ok (named : call.schema = .str id) {event : Event} {v : View} (w : World)
    (inner : ∀ level, event = .interrupted level → level = .nested) :
    ∃ w', call.logEnd event v w = .ok () w' := by
  cases event with
  | interrupted level =>
    cases inner level rfl
    exact ⟨w, rfl⟩
  | ended level =>
    cases level with
    | nested => exact ⟨w, rfl⟩
    | _ =>
      simp only [logEnd, named, Bind.bind, EStateM.bind, Executor.shown_text]
      exact ⟨_, rfl⟩
  | _ => exact ⟨w, rfl⟩

/-- Of everything but the interruption of the whole call, a call can tell. -/
theorem emit_ok (named : call.schema = .str id) {event : Event} (v : View) (w : World)
    (inner : ∀ level, event = .interrupted level → level = .nested) :
    ∃ w', call.emit audience event v w = .ok () w' := by
  obtain ⟨w₁, logged⟩ := logEnd_ok named w inner
  exact emit_of_logEnd logged

theorem host_tells (audience : Audience) (named : call.schema = .str id) : (call.host audience).Tells :=
  fun _ v w inner => emit_ok named v w inner

end Call

end Workflow
