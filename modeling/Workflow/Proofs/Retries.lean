import Workflow.Proofs.Reached

/-! Retrying a call that failed. It begins with the evaluation that failed, goes on as the program does from
there, and comes back to the same position for as long as that evaluation fails. -/

namespace Workflow
open Script (Value)
open Engine (Deed Finish Opening Position Proceeds Query Resumes Spent answered deeds)

/-- Nothing was evaluated but what stands at a position, and that failed; the gate before a step held. -/
def FailsAt (gate : Option Condition) (q : Query) (ds : List (Deed World)) : Prop :=
  ∃ d halt, d.Breaks halt ∧ d.query = q ∧
    (ds = [d] ∨ ∃ id literal c g, q = .invoke id literal ∧ gate = some c ∧ ds = [g, d] ∧
      g.query = .check .gate c ∧ g.Passes)

/-- Any number of retries that failed in one and the same evaluation. -/
inductive Relapsed (audience : Audience) (id : String) (items : Schema) (gate : Option Condition) (q : Query) :
    Execution → Execution → Prop where
  | never {e} : Relapsed audience id items gate q e e
  | again {e e' w context listener input fuel e'' w'} (before : Relapsed audience id items gate q e e')
      (registered : w.Registers id items)
      (ran : Executor.resumeState audience (.str id) (pure ⟨context, e'.view.cursors⟩) input listener fuel w =
        .ok e'' w')
      (fails : FailsAt gate q (deeds (Call.host audience ⟨.str id, context, listener⟩) fuel .resumed items
        e'.view.cursors input (w.resuming id e'.view.cursors))) :
      Relapsed audience id items gate q e e''

theorem FailsAt.returns {gate : Option Condition} {q : Query} {position : Position} {ds : List (Deed World)}
    {f : Finish} (fails : FailsAt gate q ds) (opening : Opening gate q position position ds f) :
    ∃ halt, f.Returns halt position := by
  obtain ⟨d, halt, breaks, rfl, rfl | ⟨id, literal, c, g, same, rfl, rfl, -, passes⟩⟩ := fails
  · obtain ⟨d', rest, begins, -, stops, -⟩ := opening
    cases begins
    exact ⟨halt, (stops halt breaks).2⟩
  · obtain ⟨g', rest, begins, -, -, second⟩ := opening
    cases begins
    rw [same] at second
    obtain ⟨d', rest', begins, -, -, stops⟩ := second.2 passes
    cases begins
    exact ⟨halt, (stops halt breaks).2⟩

/-- What is left of a schema at a position begins with what stands there. -/
theorem Schema.Holds.opening {audience : Audience} {call : Call} {id : String} {items : Schema} {q : Query}
    {position : Position} (holds : Schema.Holds items q position) (named : call.schema = .str id)
    {level input w ds f w'}
    (proceeds : Proceeds (call.host audience).scene level items input position w [] ds f w') :
    Opening (Schema.gateAt? items position) q position position ds f := by
  cases position with
  | nil => exact holds.elim
  | cons next deeper =>
    have resumes : Resumes (call.host audience).scene [] (.body level items input) (next :: deeper) w [] ds f w' :=
      proceeds
    exact resumes.opening (Call.host_tells audience named) rfl holds

theorem Relapsed.same_position {audience : Audience} {id : String} {items : Schema} {q : Query}
    {position : Position} {e e' : Execution} (holds : Schema.Holds items q position)
    (relapsed : Relapsed audience id items (Schema.gateAt? items position) q e e')
    (place : e.view.cursors = position.cursors) : e'.view.cursors = position.cursors := by
  induction relapsed with
  | never => exact place
  | again before registered ran fails ih =>
    obtain ⟨found, registered, rfl⟩ := registered
    have opens : Engine.Schema.Opens found.items position := .inr holds.admits
    have passes := (Schema.checkPosition_iff _ _).mpr holds.admits
    rw [ih] at ran fails
    rw [Executor.resumeState_pure registered passes] at ran
    obtain ⟨f, proceeds, same⟩ := Executor.run_accounted opens ran
    -- The call returned, so it did not fail in telling of its halt.
    obtain ⟨halt, ⟨stepId, rfl⟩ | ⟨fault, rfl⟩⟩ := fails.returns (holds.opening rfl proceeds)
    · cases same
      rfl
    · cases same

namespace Executor

/-- Whatever came before, and whatever context is left in place: retrying a call begins with the evaluation
that halted it, before any gate or test around it, and only the gate of a step comes before that step. From
there it is what is left of the program at that position, and as long as the same evaluation fails again,
the position stays the same. -/
theorem retry_repeats {audience : Audience} {id : String} {items : Schema} {e : Execution}
    {before : List (Deed World)} {d : Deed World} {w : World}
    (reached : Reached audience id items e (before ++ [d]) w) (halted : e.halted?.isSome) :
    ∃ position : Position, e.view.cursors = position.cursors ∧ d.At position.cursors ∧
      Schema.Holds items d.query position ∧
      (∀ context listener input w₁, w₁.Registers id items →
        let call : Call := ⟨.str id, context, listener⟩
        let begun := w₁.resuming id e.view.cursors
        let rest := Resumes (call.host audience).scene [] (.body .resumed items input) position begun []
        let retry := fun fuel =>
          resumeState audience (.str id) (pure ⟨context, e.view.cursors⟩) input listener fuel w₁
        let done := fun fuel => deeds (call.host audience) fuel .resumed items e.view.cursors input begun
        (∀ ds f w', rest ds f w' → Opening (Schema.gateAt? items position) d.query position position ds f ∧
          ∃ n, ∀ fuel, n ≤ fuel → retry fuel = answered (f.execution call) w' ∧ done fuel = ds) ∧
        ∀ fuel, Spent (retry fuel) ∨ ∃ f w', rest (done fuel) f w' ∧
          retry fuel = answered (f.execution call) w') ∧
      ∀ e', Relapsed audience id items (Schema.gateAt? items position) d.query e e' →
        e'.view.cursors = e.view.cursors := by
  obtain ⟨⟨halt', cursors⟩, halted⟩ := Option.isSome_iff_exists.mp halted
  obtain ⟨position, rfl, before', d', same, halts, holds, placed, -⟩ := reached.halted halted
  obtain ⟨rfl, last⟩ := List.append_inj' same rfl
  cases last
  have place : e.view.cursors = position.cursors := by simp [Execution.view, halted]
  have stays (e' : Execution)
      (relapsed : Relapsed audience id items (Schema.gateAt? items position) d.query e e') :
      e'.view.cursors = e.view.cursors := by
    rw [place]
    exact relapsed.same_position holds place
  refine ⟨position, place, placed, holds, ?_, stays⟩
  intro context listener input w₁ registered call begun rest retry done
  obtain ⟨found, registered, rfl⟩ := registered
  have passes := (Schema.checkPosition_iff _ _).mpr holds.admits
  have retried (fuel : Nat) :
      retry fuel = run audience call .resumed found.items position.cursors input fuel begun := by
    simp only [retry, begun, place]
    exact resumeState_pure registered passes input listener fuel
  have proceeds_iff (ds f w') : rest ds f w' ↔
      Proceeds (call.host audience).scene .resumed found.items input position begun [] ds f w' := by
    cases position with
    | nil => exact holds.elim
    | cons next deeper => exact Iff.rfl
  refine ⟨fun ds f w' resumes => ?_, fun fuel => ?_⟩
  · have proceeds := (proceeds_iff ds f w').mp resumes
    obtain ⟨n, traversed⟩ := proceeds.traversed
    refine ⟨holds.opening rfl proceeds, n, fun fuel enough => ?_⟩
    obtain ⟨ran, noted⟩ := traversed fuel enough
    simp only [retried, done, place]
    exact ⟨run_eq ran, noted⟩
  · have opens : Engine.Schema.Opens found.items position := .inr holds.admits
    simp only [retried, done, place]
    obtain ⟨w', spent⟩ | ⟨f, w', proceeds, ran⟩ :=
      Engine.run_proceeds (call.host audience) .resumed input begun opens fuel
    · have spent : Engine.run (call.host audience) fuel .resumed found.items position.cursors input begun =
          answered (.error (.stopped .exhausted)) w' := spent
      exact .inl ⟨w', run_eq spent⟩
    · exact .inr ⟨f, w', (proceeds_iff _ f w').mpr proceeds, run_eq ran⟩

end Executor

/-- A loop around a step that always fails, behind a gate that always holds. -/
def Schema.failing : Schema :=
  [.loop (.call (.builtin .abs)) [.step "fail" .nothing (some (.call (.builtin .abs)))] none]

def World.failing : World :=
  { registry := { steps := [{ id := "fail", handler := .call (.type (.error .retriable)) }]
                  schemas := [{ id := .str "failing", items := Schema.failing, space := .nothing }] } }

def Call.failing : Call := { schema := .str "failing", context := .int 3 }

/-- The step fails inside the loop, and so it does however often it is retried. -/
theorem Executor.failing_retry_repeats : ∃ e w, ∃ (d : Deed World) (position : Position),
    start .silent .failing .nothing 2 .failing = .ok e w ∧ e.view.cursors = [0, 0] ∧ d.At [0, 0] ∧
      ∀ e', Relapsed .silent "failing" Schema.failing (Schema.gateAt? Schema.failing position) d.query e e' →
        e'.view.cursors = [0, 0] := by
  have halts : Engine.passes (fun e _ => e.halted?.isSome && e.view.cursors == [0, 0])
    (start .silent .failing .nothing 2 .failing) = true := by decide +kernel
  obtain ⟨e, w, started, halts⟩ := Engine.exists_of_passes halts
  rw [Bool.and_eq_true, beq_iff_eq] at halts
  have reached := Reached.started rfl ⟨_, rfl, rfl⟩ started
  obtain ⟨⟨halt, cursors⟩, halted⟩ := Option.isSome_iff_exists.mp halts.1
  obtain ⟨-, -, before, d, last, -⟩ := reached.halted halted
  rw [last] at reached
  obtain ⟨position, place, placed, holds, -, again⟩ := retry_repeats reached halts.1
  rw [← place, halts.2] at placed
  exact ⟨e, w, d, position, started, halts.2, placed, fun e' relapsed => (again e' relapsed).trans halts.2⟩

end Workflow
