import Workflow.Proofs.Halts
import Workflow.Proofs.Keeping
import Workflow.Proofs.Telling

/-! Listeners that only observe: failing or not, they change nothing but the journal. Among them are the one that writes
notices to the log, and those that take notes of what they hear. Whoever fails, everybody is told. -/

namespace Workflow
open Script (Act Heap Value)

/-- Listeners only observe: failing or not, they leave the world as it is, apart from the journal in which they note
what they please. -/
def Audience.Observes (audience : Audience) : Prop := ∀ l n w, ∃ journal, (audience l n w).2 = { w with journal }

theorem Audience.silent_observes : Audience.silent.Observes := fun _ _ w => ⟨w.journal, rfl⟩

/-- A job that comes to something has written to the journal at most. -/
def Job.Notes (job : Job α) : Prop := ∀ w a w', job w = .ok a w' → ∃ journal, w' = { w with journal }

namespace Job.Notes

theorem pure (a : α) : Notes (Pure.pure a : Job α) := by
  intro w b w' ran
  cases ran
  exact ⟨w.journal, rfl⟩

theorem get : Notes MonadState.get := by
  intro w v w' ran
  cases ran
  exact ⟨w.journal, rfl⟩

theorem log (level : LogLevel) (logger message : String) : Notes (Job.log level logger message) := by
  intro w u w' ran
  cases ran
  exact ⟨_, rfl⟩

theorem bind {job : Job α} {k : α → Job β} (first : Notes job) (rest : ∀ a, Notes (k a)) : Notes (job >>= k) := by
  intro w b w' ran
  obtain ⟨a, w₁, came, next⟩ := Engine.Work.bind_ok ran
  obtain ⟨_, rfl⟩ := first w a w₁ came
  obtain ⟨journal, rfl⟩ := rest a _ b w' next
  exact ⟨journal, rfl⟩

theorem rendered (write : Heap → Except Script.RenderFault String) : Notes (Job.act (Act.rendered write)) := by
  intro w text w' ran
  obtain ⟨h, told, rfl⟩ := Job.act_ok ran
  simp only [Act.rendered, Bind.bind, EStateM.bind, Script.get_result] at told
  cases written : write w.heap with
  | ok s =>
    rw [written] at told
    cases told
    exact ⟨w.journal, rfl⟩
  | error fault =>
    rw [written] at told
    cases fault <;> cases told

theorem failing (c : Script.ErrorClass) (message : String) : Notes (Job.act (Act.fail c message) : Job α) := by
  intro w a w' ran
  obtain ⟨h, told, -⟩ := Job.act_ok ran
  cases told

theorem payloadText (payload : Value) : Notes (Trace.payloadText payload) := by
  refine bind get (fun w => ?_)
  have answered (name : String) (v : Value) : Notes (do return s!"{name} -> {← Job.shown v}") :=
    bind (rendered _) (fun _ => pure _)
  dsimp only
  split
  · exact rendered _
  · split
    · exact bind (pure _) (fun _ => answered _ _)
    · split
      · exact bind (pure _) (fun _ => answered _ _)
      · exact bind (rendered _) (fun _ => answered _ _)

theorem timeText (time : Value) : Notes (Trace.timeText time) := by
  unfold Trace.timeText
  split
  · exact pure _
  · exact pure _
  · split
    · exact pure _
    · exact failing _ _

theorem logNotice (n : Notice) : Notes (Trace.logNotice n) := by
  refine bind (payloadText _) (fun _ => ?_)
  split
  · exact failing _ _
  · exact bind (rendered _) (fun _ => bind (rendered _) (fun _ => bind (timeText _) (fun _ => log _ _ _)))

end Job.Notes

theorem Trace.logging_observes : Audience.Observes (fun _ n w => Trace.logging n w) := by
  intro _ n w
  dsimp only [Trace.logging]
  cases ran : Trace.logNotice n w with
  | ok _ w' => exact Job.Notes.logNotice n w _ w' ran
  | error fault w' => exact ⟨w.journal, rfl⟩

/-! Listeners that take notes. -/

/-- The name under which something was heard, and what was heard. -/
def JournalEntry.heard? : JournalEntry → Option (String × Notice)
  | .heard name n => some (name, n)
  | _ => none

/-- What was heard in a world, as the journal tells of it. -/
def World.heard (w : World) : List (String × Notice) := w.journal.toList.filterMap JournalEntry.heard?

/-- Listeners that write down what they hear, in words that tell of the values that they see. They fail as they please. -/
def Audience.noting (fails : Nat → Notice → World → Bool) (text : Nat → Notice → Heap → String) : Audience :=
  fun l n w => (fails l n w, { w with journal := w.journal.push (.heard (text l n w.heap) n) })

theorem World.heard_push (w : World) (e : JournalEntry) :
    World.heard { w with journal := w.journal.push e } = w.heard ++ e.heard?.toList := by
  rw [heard, Array.toList_push, List.filterMap_append]
  cases told : e.heard? <;> simp [heard, told]

/-- Nobody hears anything, and the same listeners are attached as before. -/
def SameHeard (w w' : World) : Prop := w'.heard = w.heard ∧ w'.listeners = w.listeners

theorem SameHeard.tolerant : Tolerant (fun _ _ => True) SameHeard where
  refl _ := ⟨rfl, rfl⟩
  trans first second := ⟨second.1.trans first.1, second.2.trans first.2⟩
  heap _ _ _ := ⟨rfl, rfl⟩
  compiled _ _ _ _ := ⟨rfl, rfl⟩
  logged w r := ⟨(w.heard_push (.logged r)).trans (List.append_nil _), rfl⟩

/-- What a call tells of, with the values at that time. -/
structure Announcement where
  notice : Notice
  heap : Heap

/-- What listeners write down when they hear of something, one after the other. -/
def Announcement.notes (text : Nat → Notice → Heap → String) (listeners : List Nat) (a : Announcement) : List (String × Notice) :=
  listeners.map (fun l => (text l a.notice a.heap, a.notice))

namespace Trace

/-- A listener is told, his failure is logged if he fails, and the rest is told all the same. -/
theorem deliverTo_cons (audience : Audience) (n : Notice) (l : Nat) (rest : List Nat) (w : World) :
    ∃ w₁, deliverTo audience n (l :: rest) w = deliverTo audience n rest w₁ ∧ (w₁ = (audience l n w).2 ∨
      ∃ r, w₁ = { (audience l n w).2 with journal := (audience l n w).2.journal.push (.logged r) }) := by
  simp only [deliverTo, Bind.bind, EStateM.bind, Script.get_result, Script.set_result]
  cases (audience l n w).1 with
  | false => exact ⟨_, rfl, .inl rfl⟩
  | true => exact ⟨_, rfl, .inr ⟨_, rfl⟩⟩

end Trace

end Workflow
