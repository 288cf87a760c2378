import Workflow.Proofs.Contexts
import Workflow.Proofs.Reached
import Workflow.Proofs.Splice

/-! Chains of calls that ask and are answered. A chain does what its program does in one run in which every
question is answered on the spot. -/

namespace Workflow
open Script (Value)
open Engine (Asked Closes Deed Finish Host Idles Position Proceeds Query Reopens Resumes Runs answered deeds)

/-- A start and then an answer to each question, with what has been done, what the last call came to, and the
world that it left. Between the calls the context is kept. A step that is gone on with has its own gate
checked again: that holds, keeps the context, and is no part of what has been done. -/
inductive Chain (audience : Audience) (call : Call) (id : String) (items : Schema) (input : Value) (w : World) :
    List Value → List (Deed World) → Except Fault Execution → World → Prop where
  | start {fuel r w'} (ran : Executor.start audience call input fuel w = answered r w')
      (ends : r ≠ .error (.stopped .exhausted)) :
      Chain audience call id items input w []
        (deeds (call.host audience) fuel .started items [] input (w.starting id)) r w'
  | answer {answers ds e w₁ halt} {position : Position} {w₂ answer fuel r w₃ es}
      (before : Chain audience call id items input w answers ds (.ok e) w₁)
      (halted : e.halted? = some (halt, position.cursors)) (asked : Asked ds) (kept : call.Keeps w₁ w₂)
      (registered : w₂.Registers id items)
      (ran : Executor.goOn audience e answer fuel w₂ = answered r w₃)
      (ends : r ≠ .error (.stopped .exhausted))
      (reopens : Reopens call.Keeps (Schema.gateAt? items position)
        (deeds (call.host audience) fuel .resumed items position.cursors answer
          (w₂.resuming id position.cursors)) es) :
      Chain audience call id items input w (answers ++ [answer]) (ds ++ es) r w₃

theorem Schema.Holds.resumes {items : Schema} {q : Query} {position : Position} (holds : Schema.Holds items q position)
    {s : Engine.Scene World} {level input w ds f w'} (proceeds : Proceeds s level items input position w [] ds f w') :
    Resumes s [] (.body level items input) position w [] ds f w' := by
  cases position with
  | nil => exact holds.elim
  | cons next deeper => exact proceeds

namespace Executor

/-- However often a chain of calls asks and is answered, it does what its program does in one run, in which a
step that asks is invoked again on the spot with the answer, and it comes to the same end. -/
theorem chain_runs_program {audience : Audience} {call : Call} {id : String} {space : Option String} {draft : Draft}
    {items : Schema} {input : Value} {w : World} {answers : List Value} {ds : List (Deed World)}
    {r : Except Fault Execution} {w' : World} (checked : draft.schema space = .ok items)
    (named : call.schema = .str id) (registered : w.Registers id items)
    (chain : Chain audience call id items input w answers ds r w') :
    ∃ f, Runs ((call.host audience).waiting call.Keeps) [] (.body .started items input) (w.starting id) answers ds f w' ∧
      r = f.execution call := by
  have steps := Draft.schema_named checked
  induction chain with
  | start ran ends =>
    obtain ⟨found, registered, rfl⟩ := registered
    rw [start_eq named (by rw [named]; exact registered)] at ran
    have opens : Engine.Schema.Opens found.items [] := .inl rfl
    obtain ⟨f, proceeds, same⟩ := run_returned opens ran ends
    have runs : Runs (call.host audience).scene [] (.body .started found.items input) _ _ _ f _ := proceeds
    exact ⟨f, runs.waiting call.Keeps, same.symm⟩
  | @answer answers ds e w₁ halt position w₂ answer fuel r w₃ es before halted asked kept again ran ends reopens ih =>
    obtain ⟨f, runs, same⟩ := ih
    obtain ⟨called, -⟩ := Finish.of_execution same.symm
    obtain ⟨place, stands, rfl⟩ := Finish.halted_execution same.symm halted
    obtain rfl := Position.cursors_injective stands
    -- What asked stands at the position, which therefore passes the check of the next call.
    obtain ⟨-, d, -, -, stands, -⟩ := runs.halted rfl (Engine.Task.not_pending rfl)
    have holds : Schema.Holds items d.query position := stands
    obtain ⟨found, again, rfl⟩ := again
    have cursors : e.view.cursors = position.cursors := by simp [Execution.view, halted]
    have passes := (Schema.checkPosition_iff _ _).mpr holds.admits
    rw [← cursors] at passes
    rw [goOn_eq (by rw [called, named]) (by rw [called, named]; exact again) passes, called, cursors] at ran
    have opens : Engine.Schema.Opens found.items position := .inr holds.admits
    obtain ⟨g, proceeds, same⟩ := run_returned opens ran ends
    have noted : call.Keeps w₂ (w₂.resuming id position.cursors) := .of_heap rfl
    have pause : Idles (call.host audience) call.Keeps w₁ (w₂.resuming id position.cursors) :=
      .kept (kept.trans noted) .still
    obtain ⟨-, whole⟩ := runs.splice (Call.host_tells audience named) steps rfl (Engine.Task.not_pending rfl) asked
      pause (holds.resumes proceeds) reopens
    exact ⟨g, whole, same.symm⟩

end Executor

/-- A loop around a step that asks behind a gate, with a marker that leaves the loop. -/
def Draft.asking : Draft :=
  .row .nothing [.loop .nothing (.callable (.builtin .abs))
    (.row .nothing [.step .nothing (.text "ask") .nothing (.callable (.builtin .abs)),
      .marker .nothing (.text "break") (.callable (.builtin .abs))]) .nothing]

def Schema.asking : Schema :=
  [.loop (.call (.builtin .abs)) [.step "ask" .nothing (some (.call (.builtin .abs))),
    .marker .breakLoop (.call (.builtin .abs))] none]

def World.asking : World :=
  { registry := { steps := [{ id := "ask", handler := .call (.builtin .max), input := .str "number" }]
                  schemas := [{ id := .str "asking", items := Schema.asking, space := .nothing }] } }

def Call.asking : Call := { schema := .str "asking", context := .int 3 }

theorem Call.asking_keeps (w w' : World) : Call.asking.Keeps w w' := by
  intro a reaches
  exfalso
  induction reaches with
  | here named => cases named
  | deeper reaches named ih => exact ih

def Schema.isAsking : Schema → Bool
  | [.loop (.call (.builtin .abs)) [.step "ask" .nothing (some (.call (.builtin .abs))),
      .marker .breakLoop (.call (.builtin .abs))] none] => true
  | _ => false

theorem Schema.eq_asking {items : Schema} (same : isAsking items = true) : items = asking := by
  unfold isAsking at same
  split at same
  · rfl
  · cases same

def Engine.isQuestion (ds : List (Deed World)) : Bool :=
  match ds.getLast? with
  | some (.invoked _ _ _ _ _ (.ok (.awaits _)) _) => true
  | _ => false

theorem Engine.asked_of_isQuestion {ds : List (Deed World)} (question : isQuestion ds = true) : Asked ds := by
  unfold isQuestion at question
  split at question
  · next last =>
    obtain ⟨before, same⟩ := List.getLast?_eq_some_iff.mp last
    exact ⟨before, _, _, same, rfl⟩
  · cases question

/-- Whether the first of some deeds is a gate of the kind that the step has, which holds. -/
def Engine.isReopening : List (Deed World) → Bool
  | .checked .gate (.call (.builtin .abs)) _ _ (.ok (.ok true)) _ :: _ => true
  | _ => false

theorem Engine.reopens_of_isReopening {ds : List (Deed World)} (again : isReopening ds = true) :
    ∃ es, Reopens Call.asking.Keeps (Schema.gateAt? Schema.asking [0, 0]) ds es := by
  unfold isReopening at again
  split at again
  · exact ⟨_, _, _, _, rfl, Call.asking_keeps _ _⟩
  · cases again

/-- The step asks in the first iteration, is answered there, and the loop is left. -/
theorem Executor.asking_chain_runs_program : ∃ ds f w' e,
    Runs ((Call.asking.host .silent).waiting Call.asking.Keeps) [] (.body .started Schema.asking .nothing)
      (World.asking.starting "asking") [.int 5] ds f w' ∧
      f.execution .asking = .ok e ∧ e.view.finished = true := by
  have plays : Engine.passes (fun e w => e.halted?.isSome && e.view.cursors == [0, 0] &&
      (w.registry.schema? (.str "asking")).any (fun found => Schema.isAsking found.items) &&
      Engine.isQuestion (deeds (Call.asking.host .silent) 3 .started Schema.asking [] .nothing
        (World.asking.starting "asking")) &&
      Engine.isReopening (deeds (Call.asking.host .silent) 3 .resumed Schema.asking [0, 0] (.int 5)
        (w.resuming "asking" [0, 0])) &&
      Engine.passes (fun e _ => e.view.finished) (goOn .silent e (.int 5) 3 w))
    (start .silent .asking .nothing 3 .asking) = true := by decide +kernel
  obtain ⟨e, w, started, plays⟩ := Engine.exists_of_passes plays
  simp only [Bool.and_eq_true, beq_iff_eq] at plays
  obtain ⟨⟨⟨⟨⟨halts, place⟩, registered⟩, question⟩, again⟩, finishes⟩ := plays
  obtain ⟨⟨halt, cursors⟩, halted⟩ := Option.isSome_iff_exists.mp halts
  have stands : e.halted? = some (halt, Position.cursors [0, 0]) := by
    simpa [Execution.view, halted] using place
  have registers : w.Registers "asking" Schema.asking := by
    cases there : w.registry.schema? (.str "asking") with
    | none =>
      rw [there] at registered
      cases registered
    | some found =>
      rw [there] at registered
      exact ⟨found, there, Schema.eq_asking registered⟩
  obtain ⟨es, reopens⟩ := Engine.reopens_of_isReopening again
  obtain ⟨e', w', went, finished⟩ := Engine.exists_of_passes finishes
  have returned (e : Execution) : (.ok e : Except Fault Execution) ≠ .error (.stopped .exhausted) := by
    intro same
    cases same
  have started : start .silent .asking .nothing 3 .asking = answered (.ok e) w := started
  have went : goOn .silent e (.int 5) 3 w = answered (.ok e') w' := went
  have asking : Chain .silent .asking "asking" Schema.asking .nothing .asking [] _ (.ok e) w :=
    .start started (returned e)
  have chain := asking.answer stands (Engine.asked_of_isQuestion question) (Call.asking_keeps w w) registers went
    (returned e') reopens
  have checked : Draft.asking.schema none = .ok Schema.asking := rfl
  obtain ⟨f, runs, same⟩ := chain_runs_program checked rfl ⟨_, rfl, rfl⟩ chain
  exact ⟨_, f, w', e', runs, same.symm, finished⟩

end Workflow
