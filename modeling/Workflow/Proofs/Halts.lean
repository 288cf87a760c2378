import Workflow.Proofs.Reached
import Workflow.Proofs.Snapshots

/-! Halts. A call halts where a step or a condition reports that it cannot go on, on the terms of that
report, and at a position from which it can be gone on with. -/

namespace Workflow.Engine
open Script (Value)

section
variable {σ : Type}

theorem Checks.done {s : Scene σ} {here stepId role c w ds answer w'}
    (checks : Checks s here stepId role c w ds answer w') : ∀ d ∈ ds, d.Done s.host := by
  cases checks with
  | told asked => exact List.forall_mem_singleton.mpr asked
  | untold asked => exact List.forall_mem_singleton.mpr asked
  | halted asked => exact List.forall_mem_singleton.mpr asked
  | failed asked => exact List.forall_mem_singleton.mpr asked

theorem Invokes.done {s : Scene σ} {here id literal supplied w as ds f w'}
    (invokes : Invokes s here id literal supplied w as ds f w') : ∀ d ∈ ds, d.Done s.host := by
  induction invokes with
  | told asked => exact List.forall_mem_singleton.mpr asked
  | untold asked => exact List.forall_mem_singleton.mpr asked
  | failed asked => exact List.forall_mem_singleton.mpr asked
  | again asked told waited rest ih => exact List.forall_mem_cons.mpr ⟨asked, ih⟩

theorem Runs.done {s : Scene σ} {here t w as ds f w'} (runs : Runs s here t w as ds f w') :
    ∀ d ∈ ds, d.Done s.host := by
  induction runs with
  | row_end => exact List.forall_mem_nil _
  | row first rest ih next => exact List.forall_mem_append.mpr ⟨ih, next⟩
  | rest next ih => exact ih
  | leave leaves => exact List.forall_mem_nil _
  | free free inside ih => exact ih
  | opened gated gate inside ih => exact List.forall_mem_append.mpr ⟨gate.done, ih⟩
  | closed gated gate closed => exact gate.done
  | marker marker => exact marker.done
  | step step => exact step.done
  | block body ih => exact ih
  | loop loop ih => exact ih
  | tested tested ended => exact tested.done
  | iteration tested body rounds ih next =>
    exact List.forall_mem_append.mpr ⟨List.forall_mem_append.mpr ⟨tested.done, ih⟩, next⟩
  | again again loop ih => exact ih
  | ended ended => exact List.forall_mem_nil _
  | body told row closes ih => exact ih
  | body_untold untold => exact List.forall_mem_nil _

theorem Resumes.done {s : Scene σ} {here t position w as ds f w'} (resumes : Resumes s here t position w as ds f w') :
    ∀ d ∈ ds, d.Done s.host := by
  induction resumes with
  | row row => exact row.done
  | later later row ih => exact ih
  | item item rest ih => exact List.forall_mem_append.mpr ⟨ih, rest.done⟩
  | block body ih => exact ih
  | loop body rounds ih => exact List.forall_mem_append.mpr ⟨ih, rounds.done⟩
  | body told row closes ih => exact ih
  | body_untold untold => exact List.forall_mem_nil _

theorem Proceeds.done {s : Scene σ} {level items input position w as ds f w'}
    (proceeds : Proceeds s level items input position w as ds f w') : ∀ d ∈ ds, d.Done s.host := by
  cases position with
  | nil =>
    have runs : Runs s [] (.body level items input) w as ds f w' := proceeds
    exact runs.done
  | cons next deeper =>
    have resumes : Resumes s [] (.body level items input) (next :: deeper) w as ds f w' := proceeds
    exact resumes.done

end

theorem Work.bind_ok {ε σ : Type} {x : EStateM ε σ α} {k : α → EStateM ε σ β} {w w' : σ} {b : β}
    (ran : (x >>= k) w = .ok b w') : ∃ a w₁, x w = .ok a w₁ ∧ k a w₁ = .ok b w' := by
  cases first : x w with
  | ok a w₁ =>
    simp only [Bind.bind, EStateM.bind, first] at ran
    exact ⟨a, w₁, rfl, ran⟩
  | error fault w₁ =>
    simp only [Bind.bind, EStateM.bind, first] at ran
    cases ran

theorem Work.bind_error {ε σ : Type} {x : EStateM ε σ α} {k : α → EStateM ε σ β} {w w' : σ} {fault : ε}
    (ran : (x >>= k) w = .error fault w') :
    x w = .error fault w' ∨ ∃ a w₁, x w = .ok a w₁ ∧ k a w₁ = .error fault w' := by
  cases first : x w with
  | ok a w₁ =>
    simp only [Bind.bind, EStateM.bind, first] at ran
    exact .inr ⟨a, w₁, rfl, ran⟩
  | error fault' w₁ =>
    simp only [Bind.bind, EStateM.bind, first] at ran
    cases ran
    exact .inl rfl

theorem Work.ok_bind {ε σ : Type} {x : EStateM ε σ α} {k : α → EStateM ε σ β} {w w' : σ} {a : α} (ran : x w = .ok a w') :
    (x >>= k) w = k a w' := by
  simp only [Bind.bind, EStateM.bind, ran]

theorem Work.error_bind {ε σ : Type} {x : EStateM ε σ α} {k : α → EStateM ε σ β} {w w' : σ} {fault : ε}
    (ran : x w = .error fault w') : (x >>= k) w = .error fault w' := by
  simp only [Bind.bind, EStateM.bind, ran]

end Workflow.Engine

namespace Workflow
open Script (Value)
open Engine (Deed Halt Outcome Position)

namespace Job

theorem orRetriable_ok {job : Job α} {w w' : World} {a : α} (ran : orRetriable job w = .ok (.ok a) w') :
    job w = .ok a w' := by
  simp only [orRetriable] at ran
  split at ran
  · next found =>
    cases ran
    exact found
  · split at ran <;> cases ran
  · cases ran

theorem orRetriable_error {job : Job α} {w w' : World} {failure : Value}
    (ran : orRetriable job w = .ok (.error failure) w') : job w = .error (.stopped (.raised failure)) w' := by
  simp only [orRetriable] at ran
  split at ran
  · cases ran
  · next found =>
    split at ran <;> cases ran
    exact found
  · cases ran

end Job

/-- What a step or a condition comes up with when it halts a call: a report that a step returns, or a failure
that it raises. -/
inductive Call.Reports (call : Call) : Deed World → Value → World → Prop where
  | returned {id literal supplied place w answer w' step w₁ input w₂ w₃ report w₄}
      (found : Executor.step id w = .ok step w₁) (merged : Job.act (mergeInput literal supplied) w₁ = .ok input w₂)
      (logged : w₃.heap = w₂.heap) (handled : step.handle call.context input w₃ = .ok report w₄) :
      Reports call (.invoked id literal supplied place w answer w') report w₄
  | raised {id literal supplied place w answer w' step w₁ input w₂ w₃ failure w₄}
      (found : Executor.step id w = .ok step w₁) (merged : Job.act (mergeInput literal supplied) w₁ = .ok input w₂)
      (logged : w₃.heap = w₂.heap)
      (handled : step.handle call.context input w₃ = .error (.stopped (.raised failure)) w₄) :
      Reports call (.invoked id literal supplied place w answer w') failure w₄
  | refused {role c place w answer w' failure w₁}
      (decided : call.decide c w = .error (.stopped (.raised failure)) w₁) :
      Reports call (.checked role c place w answer w') failure w₁

/-- A deed that halts a call does so on the terms of a report: of the input that it asks for, or of the failure
that it tells of. -/
def Engine.Deed.HaltsOn (d : Deed World) (halt : Halt) (report : Value) (w : World) : Prop :=
  d.Asks halt ∧ Job.haltOfInput report w = .ok halt d.after ∨
    d.Breaks halt ∧ Job.haltOfFailure report w = .ok halt d.after

namespace Call
variable {audience : Audience} {call : Call}

theorem outcomeOf_eq (report : Value) (w : World) :
    Job.outcomeOf report w = (match report.classOf w.heap with
      | .kind .inputRequired => (do return Outcome.awaits (← Job.haltOfInput report) : Job Outcome)
      | .error _ => do return .failed (← Job.haltOfFailure report)
      | _ => return .done) w := rfl

theorem outcomeOf_ok {report : Value} {outcome : Outcome} {w w' : World}
    (ran : Job.outcomeOf report w = .ok outcome w') :
    outcome = .done ∨ (∃ halt, outcome = .awaits halt ∧ Job.haltOfInput report w = .ok halt w') ∨
      ∃ halt, outcome = .failed halt ∧ Job.haltOfFailure report w = .ok halt w' := by
  rw [outcomeOf_eq] at ran
  cases found : report.classOf w.heap with
  | kind k =>
    rw [found] at ran
    by_cases asks : k = .inputRequired
    · subst asks
      obtain ⟨halt, _, made, ⟨⟩⟩ := Engine.Work.bind_ok ran
      exact .inr (.inl ⟨halt, rfl, made⟩)
    · cases k <;> first
        | exact absurd rfl asks
        | cases ran
          exact .inl rfl
  | error c =>
    rw [found] at ran
    obtain ⟨halt, _, made, ⟨⟩⟩ := Engine.Work.bind_ok ran
    exact .inr (.inr ⟨halt, rfl, made⟩)

theorem invoke_reports {id : String} {literal supplied : Value} {place : List Int} {outcome : Outcome} {w w' : World}
    (ran : call.invoke id literal supplied place w = .ok outcome w') :
    ∃ report w₁, call.Reports (.invoked id literal supplied place w (.ok outcome) w') report w₁ ∧
      (outcome = .done ∨ (∃ halt, outcome = .awaits halt ∧ Job.haltOfInput report w₁ = .ok halt w') ∨
        ∃ halt, outcome = .failed halt ∧ Job.haltOfFailure report w₁ = .ok halt w') := by
  obtain ⟨step, w₁, found, ran⟩ := Engine.Work.bind_ok ran
  obtain ⟨input, w₂, merged, ran⟩ := Engine.Work.bind_ok ran
  obtain ⟨_, w₃, wrote, ran⟩ := Engine.Work.bind_ok ran
  have logged : w₃.heap = w₂.heap := by
    cases wrote
    rfl
  obtain ⟨failure | report, w₄, handled, ran⟩ := Engine.Work.bind_ok ran
  · obtain ⟨halt, _, made, ⟨⟩⟩ := Engine.Work.bind_ok ran
    exact ⟨failure, w₄, .raised found merged logged (Job.orRetriable_error handled), .inr (.inr ⟨halt, rfl, made⟩)⟩
  · exact ⟨report, w₄, .returned found merged logged (Job.orRetriable_ok handled), outcomeOf_ok ran⟩

/-- Whatever halts a call was reported by a step or a condition. -/
theorem halts_on {d : Deed World} {halt : Halt} (done : d.Done (call.host audience)) (halts : d.Halts halt) :
    ∃ report w, call.Reports d report w ∧ d.HaltsOn halt report w := by
  cases d with
  | checked role c place w answer w' =>
    obtain asks | breaks := halts
    · exact asks.elim
    · rcases answer with fault | halt' | passed <;> cases breaks
      have ran : call.check c w = .ok (.error halt) w' := done
      obtain ⟨failure | passed, w₁, decided, ran⟩ := Engine.Work.bind_ok ran
      · obtain ⟨halt', _, made, same⟩ := Engine.Work.bind_ok ran
        cases same
        exact ⟨failure, w₁, .refused (Job.orRetriable_error decided), .inr ⟨rfl, made⟩⟩
      · cases ran
  | invoked id literal supplied place w answer w' =>
    rcases answer with fault | outcome
    · obtain asks | breaks := halts
      · exact asks.elim
      · exact breaks.elim
    · obtain ⟨report, w₁, reports, made⟩ := invoke_reports done
      refine ⟨report, w₁, reports, ?_⟩
      obtain rfl | ⟨halt', rfl, made⟩ | ⟨halt', rfl, made⟩ := made
      · obtain asks | breaks := halts
        · exact asks.elim
        · exact breaks.elim
      · obtain rfl | breaks := halts
        · exact .inl ⟨rfl, made⟩
        · exact breaks.elim
      · obtain asks | rfl := halts
        · exact asks.elim
        · exact .inr ⟨rfl, made⟩

end Call

theorem Reached.done {audience : Audience} {id : String} {items : Schema} {e : Execution} {ds : List (Deed World)}
    {w : World} (reached : Reached audience id items e ds w) : ∀ d ∈ ds, d.Done (e.call.host audience) := by
  obtain ⟨-, _, _, _, _, _, proceeds, -⟩ := reached.proceeds
  exact proceeds.done

namespace Executor

/-- Whatever came before, a call that halted stands at what halted it, on the terms that were reported there. Its
position can be gone on with in any world in which the schema is registered. Its result is on the same terms, and
a snapshot of it, which is kept from being taken only by an error that cannot be written, holds its state. -/
theorem halted_exactly {audience : Audience} {id : String} {items : Schema} {e : Execution} {ds : List (Deed World)}
    {w : World} {halt : Halt} {cursors : List Int} (reached : Reached audience id items e ds w)
    (halted : e.halted? = some (halt, cursors)) :
    (∃ (position : Position) (before : List (Deed World)) (d : Deed World), cursors = position.cursors ∧
      ds = before ++ [d] ∧ d.At cursors ∧ Schema.Holds items d.query position ∧
      (∀ step literal, d.query = .invoke step literal → e.report.stepId = step) ∧
      ∃ report w₁, e.call.Reports d report w₁ ∧ d.HaltsOn halt report w₁) ∧
    items.checkPosition cursors = .ok () ∧
    (∀ context listener input fuel w₁, w₁.Registers id items →
      resumeState audience (.str id) (pure ⟨context, cursors⟩) input listener fuel w₁ =
        run audience ⟨.str id, context, listener⟩ .resumed items cursors input fuel (w₁.resuming id cursors)) ∧
    ∀ h, ∃ r h₁, e.result h = .ok r h₁ ∧ r.context = e.call.context ∧
      r.indexes.listItems? h₁ = some (cursors.map Value.int).toArray ∧ r.stepId = .str e.report.stepId ∧
      r.inputRequired = halt.descriptor ∧ r.error = halt.error ∧ r.errors = halt.errors ∧
      r.expires = halt.expires ∧
      ∀ errors, r.Lists h₁ errors →
        Script.Act.Writes (r.Texts errors) r.snapshot h₁ (State.SavedIn ⟨r.context, cursors⟩) := by
  obtain ⟨position, rfl, before, d, rfl, halts, holds, placed, touched⟩ := reached.halted halted
  have done := reached.done d (by simp)
  have passes := (Schema.checkPosition_iff items position).mpr holds.admits
  refine ⟨⟨position, before, d, rfl, rfl, placed, holds, touched, Call.halts_on done halts⟩, passes, ?_, ?_⟩
  · rintro context listener input fuel w₁ ⟨found, registered, rfl⟩
    exact resumeState_pure registered passes input listener fuel
  · intro h
    have list := h.alloc_found (.list (position.cursors.map Value.int).toArray)
    refine ⟨_, _, Execution.result_eq halted h, rfl, ?_, rfl, rfl, rfl, rfl, rfl, ?_⟩
    · simp only [Value.listItems?, Script.Heap.object_of_getElem? list]
    · intro errors lists
      refine (Result.snapshot_writes rfl list lists).mono (fun _ _ text => text) ?_
      intro v h' _ holds
      exact State.savedIn_of_holds position.cursors_nonneg holds

end Executor

def Schema.lone : Schema := [.step "report" .nothing none]

/-- A world in which a step asks for a number and tells of an error with another number. -/
def World.reporting (n : Int) : World :=
  { heap := { objects := #[
      .dict #[(.int 3, .ref 1)],
      .record .inputRequired #[("descriptor", .str "number"), ("expires", .nothing), ("errors", .ref 2)],
      .list #[.ref 3],
      .error .value [.int n] #[]] }
    registry := { steps := [{ id := "report", handler := .call (.bound .get (.ref 0)) }]
                  schemas := [{ id := .str "lone", items := Schema.lone, space := .nothing }] } }

def Call.lone : Call := { schema := .str "lone", context := .int 3 }

/-- A number can be too long to be written, and then so is the snapshot of a result that tells of it. -/
theorem Executor.unwritable_not_saved : ∃ e ds w r h stop h',
    Reached .silent "lone" Schema.lone e ds w ∧ e.halted?.isSome ∧ e.result w.heap = .ok r h ∧
      r.snapshot h = .error stop h' := by
  have fails : Engine.passes (fun e w => e.halted?.isSome &&
      Engine.passes (fun r h => !Engine.passes (fun _ _ => true) (r.snapshot h)) (e.result w.heap))
    (start .silent .lone .nothing 1 (.reporting (Int.ofNat (Nat.pow 10 5000)))) = true := by decide +kernel
  obtain ⟨e, w, started, fails⟩ := Engine.exists_of_passes fails
  rw [Bool.and_eq_true] at fails
  obtain ⟨r, h, made, stops⟩ := Engine.exists_of_passes fails.2
  cases ran : r.snapshot h with
  | ok v h' =>
    rw [ran] at stops
    cases stops
  | error stop h' => exact ⟨e, _, w, r, h, stop, h', .started rfl ⟨_, rfl, rfl⟩ started, fails.1, made, ran⟩

/-- With a short number, the step stands at the position of its halt, and the snapshot holds the state. -/
theorem Executor.reporting_halted_exactly : ∃ e w r h v h',
    start .silent .lone .nothing 1 (.reporting 5) = .ok e w ∧ e.report.stepId = "report" ∧
      Schema.lone.checkPosition [0] = .ok () ∧ e.result w.heap = .ok r h ∧ r.snapshot h = .ok v h' ∧
      State.SavedIn ⟨r.context, [0]⟩ v h' := by
  have plays : Engine.passes (fun e w => e.halted?.isSome && e.view.cursors == [0] && e.report.stepId == "report" &&
      Engine.passes (fun r h => r.hasList h && Engine.passes (fun _ _ => true) (r.snapshot h)) (e.result w.heap))
    (start .silent .lone .nothing 1 (.reporting 5)) = true := by decide +kernel
  obtain ⟨e, w, started, plays⟩ := Engine.exists_of_passes plays
  simp only [Bool.and_eq_true, beq_iff_eq] at plays
  obtain ⟨⟨⟨halts, place⟩, touched⟩, plays⟩ := plays
  obtain ⟨r, h, made, plays⟩ := Engine.exists_of_passes plays
  rw [Bool.and_eq_true] at plays
  obtain ⟨errors, lists⟩ := Result.lists_of_hasList plays.1
  obtain ⟨v, h', taken, -⟩ := Engine.exists_of_passes plays.2
  obtain ⟨⟨halt, cursors⟩, halted⟩ := Option.isSome_iff_exists.mp halts
  obtain rfl : cursors = [0] := by simpa [Execution.view, halted] using place
  have reached := Reached.started rfl ⟨_, rfl, rfl⟩ started
  obtain ⟨-, passes, -, saves⟩ := halted_exactly reached halted
  obtain ⟨_, _, same, -, -, -, -, -, -, -, writes⟩ := saves w.heap
  cases made.symm.trans same
  obtain ⟨_, _, ran, -, saved⟩ | ⟨_, _, _, _, _, _, ran⟩ := writes errors lists
  · cases taken.symm.trans ran
    exact ⟨e, w, r, h, v, h', started, touched, passes, made, taken, saved⟩
  · cases taken.symm.trans ran

end Workflow
