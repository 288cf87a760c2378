import Workflow.Proofs.Problems
import Workflow.Proofs.Retelling
import Workflow.Proofs.Writability

/-! Commands that take care of a call as it was in another world. They succeed if the state can be written and if the call
can be told: a finished call is shown, and of a halted one the snapshot is kept. -/

namespace Workflow
open Script (Heap Renaming Value)
open Engine (Work)

variable {f : Renaming} {e e' : Execution}

/-- Corresponding calls can go on in the same way. -/
theorem Execution.Sent.offer? (sent : Execution.Sent f e e') : e'.offer? = e.offer? := by
  obtain ⟨call, stepId, ending⟩ := e
  obtain ⟨call', stepId', ending'⟩ := e'
  obtain ⟨-, -, ends⟩ := sent
  cases ends with
  | halted halt cursors => simp only [Execution.offer?, Execution.halted?, Option.map_some, Job.Matches.isPresent_sent halt.error]
  | _ => rfl

/-- A call that can go on has halted. -/
theorem Execution.halted_of_offer {o : Offer} (offered : e.offer? = some o) :
    ∃ cursors, e.halted? = some (e.halt, cursors) ∧ o = if isPresent e.halt.error then .retry else .resume := by
  obtain ⟨⟨halt, cursors⟩, halted, rfl⟩ := Option.map_eq_some_iff.mp offered
  have same : e.halt = halt := by simp only [Execution.halt, Execution.view, halted, Option.map_some, Option.getD_some]
  rw [same]
  exact ⟨cursors, halted, rfl⟩

theorem Execution.finished_of_offer (finished : e.offer? = none) : e.halted? = none := Option.map_eq_none_iff.mp finished

namespace Command

/-- The code of a command after whose call another one can go on. -/
def Offered (o : Offer) : ExitCode :=
  match o with
  | .resume => .awaiting
  | .retry => .retriable

variable {path : FilePath} {v w : World} (sent : Execution.Sent f e e') (renamed : v.heap.Renamed f w.heap)
  (writable : w.files.Writable path)
include sent renamed writable

/-- A finished call is shown where it came to the same, if its context is plain data. -/
theorem conclude_finishes {j : Json} (finished : e.offer? = none) (data : e.call.context.data v.heap = .ok j) :
    ∃ w', conclude path e' w = .ok .finished w' ∧ w'.files.exists? path = false ∧ w'.lines = w.lines ++ [.printed j.pretty] := by
  have ended : e'.halted? = none := Execution.finished_of_offer (sent.offer?.trans finished)
  obtain ⟨r, h, made⟩ : ∃ r h, e'.result w.heap = .ok r h := ⟨_, _, rfl⟩
  have grows : w.heap.Grows h := by
    cases made
    exact .alloc _ _
  obtain ⟨w₁, cleared, heap⟩ := FileTree.Writable.clear (w := { w with heap := h }) writable
  have told : jsonText Json.pretty r.context w₁ = .ok j.pretty w₁ := by
    obtain ⟨covers, same⟩ := sent.call.context
    have away : r.context.data w₁.heap = .ok j := by
      rw [Execution.result_context made, same, heap]
      exact ((renamed.right grows).data covers).trans data
    have texts : r.context.dataWithTexts w₁.heap = .ok j := Script.Value.toJson_plain _ away (Nat.le_refl _) (List.Subset.refl _)
    simp only [jsonText, Bind.bind, EStateM.bind, Script.get_result, texts]
    rfl
  have concluded : conclude path e' w = .ok .finished { w₁ with journal := w₁.journal.push (.printed j.pretty) } := by
    rw [conclude_finished ended]
    refine (Work.ok_bind (show Job.act e'.result w = .ok r { w with heap := h } by simp only [Job.act, made])).trans ?_
    exact (Work.ok_bind cleared).trans (Work.ok_bind told)
  obtain ⟨gone, -, lines⟩ := Store.clear_ok cleared
  refine ⟨_, concluded, gone, ?_⟩
  rw [(print_lines j.pretty rfl).2.2, lines]
  rfl

/-- The snapshot of a halted call is kept where it came to the same. -/
theorem conclude_halts {o : Offer} {j : Json} {k : Heap} (offered : e.offer? = some o) (saves : e.Saves v.heap j k)
    (tellable : e.Tellable v.heap) :
    ∃ w', conclude path e' w = .ok (Offered o) w' ∧ w'.files.read path = .ok j.pretty ∧
      FileTree.Changes (w.files.Used path) w.files w'.files ∧ w'.files.Writable path := by
  obtain ⟨cursors, halted, rfl⟩ := Execution.halted_of_offer (sent.offer?.trans offered)
  obtain ⟨h, again, away⟩ := sent.saves renamed tellable saves
  obtain ⟨r, h₁, u, made, taken, data⟩ := id again
  obtain ⟨w₁, saved, heap, changes, still⟩ := FileTree.Writable.save (w := { w with heap := h₁ }) writable taken data
  have kept : w₁.files.read path = .ok j.pretty := by
    obtain ⟨_, _, _, _, taken', data', kept, same⟩ := Store.save_ok saved
    cases taken.symm.trans taken'
    cases data.symm.trans data'
    rw [same]
    exact kept
  have begun : conclude path e' w = (do
      let step ← Job.shown r.stepId
      let saved := s!"State saved to {path.text}; run "
      if isPresent r.error then
        complain s!"Step '{step}' failed: {← Job.shown r.error}"
        complain (saved ++ "'stepflow resume' to retry.")
        return .retriable
      else
        print s!"Step '{step}' requires input: {← jsonText Json.compact r.inputRequired}"
        print (saved ++ "'stepflow resume --input JSON' to continue.")
        return .awaiting : Job ExitCode) w₁ := by
    rw [conclude_halted halted]
    refine (Work.ok_bind (show Job.act e'.result w = .ok r { w with heap := h₁ } by simp only [Job.act, made])).trans ?_
    exact Work.ok_bind saved
  rw [begun, Execution.result_stepId made, Execution.result_error halted made]
  cases present : isPresent e'.halt.error with
  | true =>
    obtain ⟨h₂, s, grows, text⟩ := again.error_told present
    obtain ⟨covers, same⟩ := sent.view.2.2.2.error
    have told : e'.halt.error.plain w₁.heap = .ok s := by
      rw [heap, same, tellable.error f h away covers, ← tellable.error f h₂ (renamed.right grows) covers, ← same]
      exact text
    have shown : Job.shown e'.halt.error w₁ = .ok s w₁ := Document.shown_eq told
    exact ⟨_, (Work.ok_bind (Executor.shown_text _ _)).trans (Work.ok_bind shown), kept, changes, still⟩
  | false =>
    obtain ⟨j', texts⟩ := Result.inputRequired_data taken data
    have shown : jsonText Json.compact r.inputRequired w₁ = .ok j'.compact w₁ := by
      simp only [jsonText, Bind.bind, EStateM.bind, Script.get_result, heap, texts]
      rfl
    exact ⟨_, (Work.ok_bind (Executor.shown_text _ _)).trans (Work.ok_bind shown), kept, changes, still⟩

end Command

end Workflow
