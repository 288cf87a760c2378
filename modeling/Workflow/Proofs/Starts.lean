import Workflow.Proofs.Telling

/-! Starting a schema runs it as a structured program: the same conditions are checked and the same steps
invoked, in the same order and in the same worlds, and the call ends as the program does. -/

namespace Workflow
open Script (Value)
open Engine (Deed Finish Runs Spent answered deeds)

/-- A call that nothing halted has come to its end, or its last deed failed and it fails with that. -/
theorem Engine.Runs.unhalted {audience : Audience} {call : Call} {id : String} (named : call.schema = .str id)
    {items : Schema} {input : Value} {w : World} {answers : List Value} {ds : List (Deed World)} {f : Finish}
    {w' : World}
    (runs : Runs (call.host audience).scene [] (.body .started items input) w answers ds f w')
    (unhalted : ∀ d ∈ ds, ∀ halt, ¬ d.Halts halt) :
    (∃ e, f.execution call = .ok e ∧ e.call = call ∧ e.view.finished = true ∧ e.view.cursors = [] ∧
        e.offer? = none) ∨
      ∃ fault before d, f.execution call = .error fault ∧ ds = before ++ [d] ∧ d.Raises fault ∧
        d.after = w' := by
  cases f with
  | onward p => exact .inl ⟨_, rfl, rfl, rfl, rfl, rfl⟩
  | signalled signal stepId => exact .inl ⟨_, rfl, rfl, rfl, rfl, rfl⟩
  | halted halt position stepId =>
    obtain ⟨before, d, rfl, halts, -⟩ := runs.halted rfl nofun
    exact absurd halts (unhalted d (by simp) halt)
  | failed fault =>
    obtain ⟨before, d, same, raises, after⟩ | ⟨event, v, w₁, untold, halts⟩ := runs.failed rfl nofun
    · exact .inr ⟨fault, before, d, rfl, same, raises, after⟩
    · have inner : ∀ level, event = .interrupted level → level = .nested := by
        intro level same
        obtain ⟨before, d, halt, rfl, last⟩ := halts level same
        exact absurd last (unhalted d (by simp) halt)
      exact absurd untold ((Call.host_tells audience named).told inner)

namespace Executor

/-- What the program of a schema can do, its start does with enough fuel, deed by deed. Whatever a start
does, unless its fuel is spent, is what the program can do. -/
theorem start_runs_program {audience : Audience} {call : Call} {id : String} {w : World}
    {found : RegisteredSchema} (named : call.schema = .str id)
    (registered : w.registry.schema? call.schema = some found) (input : Value) :
    let begun := w.starting id
    let program := Runs (call.host audience).scene [] (.body .started found.items input) begun []
    (∀ ds f w', program ds f w' →
      (∃ n, ∀ fuel, n ≤ fuel → start audience call input fuel w = answered (f.execution call) w' ∧
        deeds (call.host audience) fuel .started found.items [] input begun = ds) ∧
      ((∀ d ∈ ds, ∀ halt, ¬ d.Halts halt) →
        (∃ e, f.execution call = .ok e ∧ e.call = call ∧ e.view.finished = true ∧ e.view.cursors = [] ∧
            e.offer? = none) ∨
          ∃ fault before d, f.execution call = .error fault ∧ ds = before ++ [d] ∧ d.Raises fault ∧
            d.after = w')) ∧
    ∀ fuel, Spent (start audience call input fuel w) ∨ ∃ f w',
      program (deeds (call.host audience) fuel .started found.items [] input begun) f w' ∧
        start audience call input fuel w = answered (f.execution call) w' := by
  intro begun program
  refine ⟨fun ds f w' runs => ⟨?_, runs.unhalted named⟩, fun fuel => ?_⟩
  · have proceeds : Engine.Proceeds (call.host audience).scene .started found.items input [] begun [] ds f w' :=
      runs
    obtain ⟨n, traversed⟩ := proceeds.traversed
    refine ⟨n, fun fuel enough => ?_⟩
    obtain ⟨ran, noted⟩ := traversed fuel enough
    rw [start_eq named registered]
    exact ⟨run_eq ran, noted⟩
  · rw [start_eq named registered]
    have opens : Engine.Schema.Opens found.items [] := .inl rfl
    obtain ⟨w', spent⟩ | ⟨f, w', runs, ran⟩ :=
      Engine.run_proceeds (call.host audience) .started input begun opens fuel
    · have spent : Engine.run (call.host audience) fuel .started found.items [] input begun =
          answered (.error (.stopped .exhausted)) w' := spent
      exact .inl ⟨w', run_eq spent⟩
    · exact .inr ⟨f, w', runs, run_eq ran⟩

end Executor

/-- A loop whose test always holds, with a step and a marker that leaves it. -/
def Schema.sample : Schema :=
  [.loop (.call (.builtin .abs)) [.step "raise" (.int 5) none, .marker .breakLoop (.call (.builtin .abs))] none]

def World.sample : World :=
  { registry := { steps := [{ id := "raise", handler := .call (.builtin .max) }]
                  schemas := [{ id := .str "sample", items := Schema.sample, space := .nothing }] } }

def Call.sample : Call := { schema := .str "sample", context := .int 3 }

/-- The loop is entered once: its test, its step, and the marker that leaves it. -/
theorem Executor.sample_runs_program : ∃ ds f w',
    Runs (Call.sample.host .silent).scene [] (.body .started Schema.sample .nothing)
      (World.sample.starting "sample") [] ds f w' ∧ ds.length = 3 := by
  have finishes : Engine.passes (fun e _ => e.view.finished) (Executor.start .silent .sample .nothing 2 .sample) =
    true := by decide +kernel
  have named : Call.sample.schema = .str "sample" := rfl
  have registered : World.sample.registry.schema? Call.sample.schema =
    some { id := .str "sample", items := Schema.sample, space := .nothing } := rfl
  obtain ⟨w', spent⟩ | ⟨f, w', runs, -⟩ := (Executor.start_runs_program named registered .nothing).2 2
  · rw [spent] at finishes
    cases finishes
  · exact ⟨_, f, w', runs, by decide +kernel⟩

end Workflow
