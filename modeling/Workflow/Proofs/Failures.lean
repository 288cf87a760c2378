import Workflow.Proofs.ExitCodes
import Workflow.Proofs.Shapes
import Workflow.Proofs.Traces

/-! Failures that can be retried. A step or a condition that fails in this way ends its call, and whatever is made of the
call afterwards tells of a failure. -/

namespace Workflow
open Script (Act Entries Heap Value)
open Engine (Work)

namespace Engine

/-- A part that made some moments ends with a halt on some terms, unless something could not be told. -/
def End.Stops (halt : Halt) (ms : List (Moment σ)) : End → Prop
  | .ok (.leave ⟨_, .halted h _⟩) => h = halt
  | .ok _ => False
  | .error fault => ∃ event v w w', Moment.missed event v w fault w' ∈ ms

section
variable {halt : Halt} {e : End} {p q : Progress} {ms ns : List (Moment σ)}

namespace End

theorem Stops.mono (stops : e.Stops halt ms) (within : ms ⊆ ns) : e.Stops halt ns := by
  cases e with
  | error fault =>
    obtain ⟨event, v, w, w', among⟩ := stops
    exact ⟨event, v, w, w', within among⟩
  | ok v =>
    obtain q | ⟨stepId, ending⟩ := v
    · exact stops
    · cases ending <;> exact stops

/-- What is made of the report of a part that is halted is as good, if it is halted on the same terms. -/
theorem Stops.map {f : Verdict → Verdict} (stops : e.Stops halt ms)
    (keeps : ∀ stepId cursors, ∃ stepId' cursors',
      f (.leave ⟨stepId, .halted halt cursors⟩) = .leave ⟨stepId', .halted halt cursors'⟩) : Stops halt ms (e.map f) := by
  cases e with
  | error fault => exact stops
  | ok v =>
    obtain q | ⟨stepId, ending⟩ := v
    · exact stops.elim
    · cases ending with
      | halted h cursors =>
        obtain rfl : h = halt := stops
        obtain ⟨_, _, same⟩ := keeps stepId cursors
        rw [Except.map, same]
        exact rfl
      | passed => exact stops.elim
      | signalled => exact stops.elim

theorem Stops.not_again (stops : e.Stops halt ms) (again : e.again? p = some q) : False := by
  cases e with
  | error fault => cases again
  | ok v =>
    obtain q | ⟨stepId, ending⟩ := v
    · exact stops
    · cases ending with
      | halted => cases again
      | passed => exact stops
      | signalled => exact stops

theorem Stops.ofLoop (stops : e.Stops halt ms) : (e.ofLoop p).Stops halt ms := by
  cases e with
  | error fault => exact stops
  | ok v =>
    obtain q | ⟨stepId, ending⟩ := v
    · exact stops.elim
    · cases ending with
      | halted => exact stops
      | passed => exact stops.elim
      | signalled => exact stops.elim

end End

theorem Deed.Breaks.not_asks {d : Deed σ} {halt' : Halt} (breaks : d.Breaks halt) : ¬ d.Asks halt' := by
  cases d with
  | checked => exact id
  | invoked _ _ _ _ _ answer =>
    obtain fault | outcome := answer
    · exact id
    · cases outcome with
      | done => exact id
      | awaits => exact breaks.elim
      | failed => exact id

/-- A check that halts a call is answered with the halt. -/
theorem CheckMoments.answer_of_halts {here stepId role c answer}
    (check : CheckMoments here stepId role c ms answer) {d : Deed σ} (done : d ∈ deedsOf ms) (halts : d.Halts halt) :
    answer = .ok (.error halt) := by
  cases check with
  | told =>
    obtain rfl := List.mem_singleton.mp done
    exact halts.elim False.elim False.elim
  | missed =>
    obtain rfl := List.mem_singleton.mp done
    exact halts.elim False.elim False.elim
  | @stopped w answer w₁ stops =>
    obtain rfl := List.mem_singleton.mp done
    rcases answer with fault | halt' | passed
    · exact halts.elim False.elim False.elim
    · obtain asks | rfl := halts
      · exact asks.elim
      · rfl
    · exact absurd rfl (stops passed)

theorem StepMoments.stops {here id literal supplied} (step : StepMoments here id literal supplied ms e)
    {d : Deed σ} (done : d ∈ deedsOf ms) (halts : d.Halts halt) : e.Stops halt ms := by
  cases step with
  | @told w outcome =>
    obtain rfl := List.mem_singleton.mp done
    cases outcome with
    | done => exact halts.elim False.elim False.elim
    | awaits => exact halts.elim (fun asks => asks) False.elim
    | failed => exact halts.elim False.elim (fun breaks => breaks)
  | missed => exact ⟨_, _, _, _, List.mem_cons_of_mem _ List.mem_cons_self⟩
  | failed =>
    obtain rfl := List.mem_singleton.mp done
    exact halts.elim False.elim False.elim

theorem TestMoments.not_halts {here stepId test resume} (tested : TestMoments here stepId test resume ms) {d : Deed σ}
    (done : d ∈ deedsOf ms) : ¬ d.Halts halt := by
  intro halts
  cases tested with
  | checked check => cases check.answer_of_halts done halts
  | resumed => cases done

/-- Whatever halts a part of a call ends it. -/
theorem Chronicle.stops {here : List Int} {t : Part} {d : Deed σ} (chronicle : Chronicle here t ms e) (done : d ∈ deedsOf ms)
    (halts : d.Halts halt) : e.Stops halt ms := by
  induction chronicle with
  | row_end => cases done
  | row_onward first rest ihFirst ihRest =>
    rw [deedsOf_append, List.mem_append] at done
    cases done with
    | inl early => exact (ihFirst early).elim
    | inr late => exact (ihRest late).mono (List.subset_append_right _ _)
  | row_leave first ih =>
    have stops : End.Stops halt _ (.ok (.leave _)) := ih done
    exact stops.map (f := fun v => .leave (v.report.under _)) (fun _ _ => ⟨_, _, rfl⟩)
  | row_failed first ih => exact ih done
  | ahead ahead row ih => exact ih done
  | back back row again ihRow ihAgain =>
    rw [deedsOf_append, List.mem_append] at done
    cases done with
    | inl early => exact (ihRow early).elim
    | inr late => exact (ihAgain late).mono (List.subset_append_right _ _)
  | back_end back row ends ih => exact ih done
  | free free inside ih => exact ih done
  | opened gated gate inside ih =>
    rw [deedsOf_append, List.mem_append] at done
    cases done with
    | inl early => cases gate.answer_of_halts early halts
    | inr late => exact (ih late).mono (List.subset_append_right _ _)
  | shut gated gate shut =>
    obtain rfl := gate.answer_of_halts done halts
    cases shut
    rfl
  | marker check =>
    obtain rfl := check.answer_of_halts done halts
    rfl
  | step step => exact step.stops done halts
  | block body ih => exact (ih done).map (fun _ _ => ⟨_, _, rfl⟩)
  | loop loop ih => exact ih done
  | body walk closes ih =>
    rw [deedsOf_told, deedsOf_append, List.mem_append] at done
    cases closes with
    | told =>
      have stops := ih (done.resolve_right List.not_mem_nil)
      exact stops.mono (List.subset_cons_of_subset _ (List.subset_append_left _ _))
    | missed => exact ⟨_, _, _, _, List.mem_cons_of_mem _ (List.mem_append_right _ List.mem_cons_self)⟩
    | failed =>
      have stops := ih (done.resolve_right List.not_mem_nil)
      exact stops.mono (List.subset_cons_of_subset _ (List.subset_append_left _ _))
  | body_missed => cases done
  | spent => cases done
  | tested check ends =>
    obtain rfl := check.answer_of_halts done halts
    cases ends
    rfl
  | round tested body again rest ihBody ihRest =>
    rw [deedsOf_append, deedsOf_append, List.mem_append, List.mem_append] at done
    obtain early | inside | late := done
    · exact absurd halts (tested.not_halts early)
    · exact ((ihBody inside).not_again again).elim
    · exact (ihRest late).mono (List.subset_append_of_subset_right _ (List.subset_append_right _ _))
  | round_end tested body ends ih =>
    rw [deedsOf_append, List.mem_append] at done
    cases done with
    | inl early => exact absurd halts (tested.not_halts early)
    | inr inside => exact (ih inside).ofLoop.mono (List.subset_append_right _ _)

end

end Engine

namespace Result
variable {r : Result} {h h' : Heap} {v : Value}

theorem errorOf_present {error : Value} (present : error ≠ .nothing) : errorOf error = errorData error := by
  cases error with
  | nothing => exact absurd rfl present
  | _ => rfl

/-- The data of an error are an object of their own, and its text could be written. -/
theorem errorData_ok {error data : Value} (told : errorData error h = .ok data h') :
    isPresent data ∧ h.Extends h' ∧ ∃ text, error.plain h = .ok text := by
  obtain ⟨_, h₁, got, told⟩ := Work.bind_ok told
  cases got
  obtain ⟨message, h₂, written, made⟩ := Work.bind_ok told
  simp only [Act.plain, Act.rendered, Bind.bind, EStateM.bind, Script.get_result] at written
  cases text : error.plain h with
  | ok s =>
    simp only [text] at written
    cases written
    cases made
    exact ⟨rfl, .alloc h _, _, rfl⟩
  | error fault =>
    simp only [text] at written
    cases fault <;> cases written

theorem named_error (r : Result) (state : Value) {error : Value} (errors : Value) (present : isPresent error) :
    Entries.named? (r.entries state error errors) "error" = some error := by
  have first : Value.sameKey (.str "schema_id") (.str "error") = false := by decide
  have second : Value.sameKey (.str "state") (.str "error") = false := by decide
  have third : Value.sameKey (.str "finished") (.str "error") = false := by decide
  have fourth : Value.sameKey (.str "step_id") (.str "error") = false := by decide
  have fifth : Value.sameKey (.str "input_required") (.str "error") = false := by decide
  have same : Value.sameKey (.str "error") (.str "error") = true := by decide
  have before : (presentEntry "input_required" r.inputRequired).find? (fun entry => entry.1.sameKey (.str "error")) = none := by
    unfold presentEntry
    split
    · simp [fifth]
    · rfl
  have here : presentEntry "error" error = [(.str "error", error)] := by rw [presentEntry, if_pos present]
  simp [Entries.named?, Entries.get?, entries, first, second, third, fourth, before, here, same]

/-- A snapshot of a failure tells of it. -/
theorem snapshot_tells_error (failed : r.error ≠ .nothing) (taken : r.snapshot h = .ok v h') :
    ∃ d entries data, v = .ref d ∧ h'.object d = .dict entries ∧ Entries.named? entries "error" = some data := by
  obtain ⟨indexes, h₁, -, taken⟩ := Work.bind_ok taken
  obtain ⟨state, h₂, -, taken⟩ := Work.bind_ok taken
  obtain ⟨error, h₃, told, taken⟩ := Work.bind_ok taken
  obtain ⟨errors, h₄, -, taken⟩ := Work.bind_ok taken
  rw [errorOf_present failed] at told
  cases taken
  exact ⟨_, _, error, rfl, Heap.object_of_getElem? (h₄.alloc_found _), r.named_error state errors (errorData_ok told).1⟩

/-- The errors of a result that are missing or a list are told of without a change of what is there. -/
theorem errorsOf_extends {errors : List Value} {data : Value} (lists : r.Lists h errors)
    (told : errorsOf r.errors h = .ok data h') : h.Extends h' := by
  obtain ⟨_, _, same, grows, -⟩ | ⟨_, _, _, _, _, _, fails⟩ := errorsOf_writes lists
  · cases told.symm.trans same
    exact grows
  · cases told.symm.trans fails

/-- A snapshot writes the text of the error, and if errors are missing or a list, it changes nothing after that. -/
theorem snapshot_writes_error {errors : List Value} {a : Script.Addr} {items : Array Value} (indexes : r.indexes = .ref a)
    (listed : h.objects[a]? = some (.list items)) (lists : r.Lists h errors) (failed : r.error ≠ .nothing)
    (taken : r.snapshot h = .ok v h') : ∃ h₁ text, h₁.Extends h' ∧ r.error.plain h₁ = .ok text := by
  obtain ⟨l, h₁, copied, taken⟩ := Work.bind_ok taken
  obtain ⟨state, h₂, stated, taken⟩ := Work.bind_ok taken
  obtain ⟨error, h₃, told, taken⟩ := Work.bind_ok taken
  obtain ⟨shown, h₄, listed', taken⟩ := Work.bind_ok taken
  rw [errorOf_present failed] at told
  obtain ⟨-, third, text, written⟩ := errorData_ok told
  have first : h.Extends h₁ := by
    rw [indexes] at copied
    obtain ⟨row, h₀, read, made⟩ := Work.bind_ok copied
    have writes : Act.Writes (fun _ _ => True) _ _ _ := rowOf_writes listed
    obtain ⟨_, _, same, grows, -⟩ | ⟨_, _, _, _, _, _, fails⟩ := writes
    · cases read.symm.trans same
      cases made
      exact grows.trans (.alloc h₀ _)
    · cases read.symm.trans fails
  have second : h₁.Extends h₂ := by
    cases stated
    exact .alloc h₁ _
  have fourth := errorsOf_extends (((lists.extends first).extends second).extends third) listed'
  cases taken
  exact ⟨h₂, text, (third.trans fourth).trans (.alloc h₄ _), written⟩

end Result

namespace Command
variable {path : FilePath} {e : Execution} {w w₁ : World} {i : Invocation} {files : FileTree}

/-- The call of a command is one call. -/
theorem Called.unique {f : Execution} (first : Called i files e w) (second : Called i files f w₁) : e = f ∧ w = w₁ := by
  cases first with
  | run asked ran =>
    cases second with
    | run again same =>
      cases asked.symm.trans again
      exact EStateM.Result.ok.inj (ran.symm.trans same)
    | resume again => cases asked.symm.trans again
  | resume asked loaded ran =>
    cases second with
    | run again => cases asked.symm.trans again
    | resume again reloaded same =>
      obtain ⟨rfl, rfl⟩ := EStateM.Result.ok.inj (loaded.symm.trans reloaded)
      exact EStateM.Result.ok.inj (ran.symm.trans same)

/-- A command takes care of its call. -/
theorem Called.performed {code : ExitCode} {w' : World} (called : Called i files e w)
    (concluded : conclude (FilePath.ofText i.stateFile) e w = .ok code w') : perform i { files } = .ok code w' := by
  cases called with
  | run asked ran =>
    have course := (Work.ok_bind ran).trans concluded
    rw [← run_eq] at course
    simp only [perform, asked]
    exact withSettled_ok course
  | resume asked loaded ran =>
    have course := (Work.ok_bind ran).trans concluded
    rw [← resume_eq] at course
    simp only [perform, asked, Bind.bind, EStateM.bind, Job.attempt, loaded]
    exact withSettled_ok course

/-- Once the snapshot of a failure is saved, the command exits as one that can be retried, or it cannot write the error. -/
theorem conclude_failure {halt : Engine.Halt} {cursors : List Int} (halted : e.halted? = some (halt, cursors))
    (failed : halt.error ≠ .nothing) {r : Result} {h : Heap} (made : e.result w.heap = .ok r h) {v : Value}
    (saved : Store.save path r { w with heap := h } = .ok v w₁) :
    (∃ w', conclude path e w = .ok .retriable w') ∨ ∃ fault, halt.error.plain w₁.heap = .error fault := by
  have result : Job.act e.result w = .ok r { w with heap := h } := by simp only [Job.act, made]
  have step : Job.shown r.stepId w₁ = .ok e.report.stepId w₁ := by
    rw [Execution.result_stepId made]
    rfl
  have error := Execution.result_error halted made
  cases written : halt.error.plain w₁.heap with
  | error fault => exact .inr ⟨fault, rfl⟩
  | ok text =>
    have shown : Job.shown halt.error w₁ = .ok text w₁ := by
      simp only [Job.shown, Job.act, Act.plain, Act.rendered, Bind.bind, EStateM.bind, Script.get_result, written]
      rfl
    left
    rw [conclude_halted halted, Work.ok_bind result, Work.ok_bind saved, Work.ok_bind step, error,
      if_pos ((Execution.isPresent_iff _).mpr failed), Work.ok_bind shown]
    exact ⟨_, rfl⟩

theorem Called.calls (called : Called i files e w) : i.request ≠ .validate := by
  cases called with
  | run asked => simp [asked]
  | resume asked => simp [asked]

/-- A command that exits without an error of its own has taken care of its call. -/
theorem Called.concluded {args : List String} {code : ExitCode} {w' : World} (called : Called i files e w)
    (invoked : Invocation.ofArguments? false args = .ok (some i)) (ran : execute args files = (.exit code, w')) :
    (∃ w₂, conclude (FilePath.ofText i.stateFile) e w = .ok code w₂) ∨ code = .failed ∨ code = .refused := by
  obtain ⟨f, w₁, code', w₂, again, concluded, performed⟩ | ⟨failing, -⟩ := perform_cases called.calls files
  · obtain ⟨rfl, rfl⟩ := called.unique again
    cases (execute_ok invoked performed).symm.trans ran
    exact .inl ⟨w₂, concluded⟩
  · cases performed : perform i { files } with
    | ok code' w₂ =>
      cases (execute_ok invoked performed).symm.trans ran
      exact .inr (failing code w₂ performed)
    | error fault w₂ => cases (execute_error invoked performed).symm.trans ran

end Command

open Command (Called Invocation execute) in
/-- What a call is worth that failed on some terms. It offers to retry and nothing else, and whatever is made of it tells
of the failure. -/
structure Execution.Failed (e : Execution) (halt : Engine.Halt) : Prop where
  halted : ∃ cursors, e.halted? = some (halt, cursors)
  offer : e.offer? = some .retry
  told : ∀ h r h₁ v h', e.result h = .ok r h₁ → r.snapshot h₁ = .ok v h' →
    ∃ d entries data, v = .ref d ∧ h'.object d = .dict entries ∧ Entries.named? entries "error" = some data
  taken : ∀ h r h₁ errors, e.result h = .ok r h₁ → r.Lists h₁ errors →
    Act.Writes (r.Texts errors) r.snapshot h₁ (fun _ _ => True)
  saved : ∀ args i files w r h v w₁, Invocation.ofArguments? false args = .ok (some i) → Called i files e w →
    e.result w.heap = .ok r h → Store.save (FilePath.ofText i.stateFile) r { w with heap := h } = .ok v w₁ →
    (∃ w', execute args files = (.exit .retriable, w')) ∨
      (∃ fault, halt.error.plain w₁.heap = .error fault) ∧
        ∀ errors, r.Lists h errors → ∃ (a : Script.Addr) (h' : Heap), h'.Reaches halt.error a ∧ h'.objects[a]? = none
  only : ∀ args i files w w', Invocation.ofArguments? false args = .ok (some i) → Called i files e w →
    execute args files ≠ (.exit .awaiting, w') ∧ execute args files ≠ (.exit .finished, w')

theorem Execution.failed_of_halted {e : Execution} {halt : Engine.Halt} {cursors : List Int}
    (halted : e.halted? = some (halt, cursors)) (given : halt.error ≠ .nothing) : e.Failed halt where
  halted := ⟨cursors, halted⟩
  offer := by simp only [offer?, halted, Option.map_some, if_pos ((isPresent_iff _).mpr given)]
  told h r h₁ v h' made taken := by
    have failed : r.error ≠ .nothing := by rwa [result_error halted made]
    exact Result.snapshot_tells_error failed taken
  taken h r h₁ errors made lists := by
    cases (result_eq halted h).symm.trans made
    exact (Result.snapshot_writes rfl (h.alloc_found _) lists).mono (fun _ _ text => text) (fun _ _ _ _ => trivial)
  saved args i files w r h v w₁ invoked called made saved := by
    obtain ⟨w', concluded⟩ | ⟨fault, unwritten⟩ := Command.conclude_failure halted given made saved
    · exact .inl ⟨_, Command.execute_ok invoked (called.performed concluded)⟩
    · refine .inr ⟨⟨fault, unwritten⟩, fun errors lists => ?_⟩
      have failed : r.error ≠ .nothing := by rwa [result_error halted made]
      obtain ⟨h₂, _, _, _, snapshot, -, -, rfl⟩ := Store.save_ok saved
      have error := result_error halted made
      cases (result_eq halted w.heap).symm.trans made
      obtain ⟨h₁, text, grows, written⟩ := Result.snapshot_writes_error rfl (w.heap.alloc_found _) lists failed snapshot
      obtain again | ⟨a, reached, missing⟩ := Value.plain_extends grows written
      · cases again.symm.trans unwritten
      · exact ⟨a, h₁, reached, missing⟩
  only args i files w w' invoked called := by
    have offer : e.offer? = some .retry := by
      simp only [offer?, halted, Option.map_some, if_pos ((isPresent_iff _).mpr given)]
    constructor
    · intro ran
      obtain ⟨w₂, concluded⟩ | impossible | impossible := called.concluded invoked ran
      · cases Command.conclude_ok concluded with
        | awaiting resumes => cases offer.symm.trans resumes
      · cases impossible
      · cases impossible
    · intro ran
      obtain ⟨w₂, concluded⟩ | impossible | impossible := called.concluded invoked ran
      · cases Command.conclude_ok concluded with
        | finished ended => cases halted.symm.trans ended
      · cases impossible
      · cases impossible

/-- A call that a step or a condition breaks off returns what was reported to it, as a failure that can be retried, unless
an event could not be told of. That there was a failure is told by the error of that report alone. -/
theorem Request.failure_offers_retry {audience : Audience} {input : Value} {fuel : Nat} {r : Request} {w : World}
    {d : Engine.Deed World} {halt : Engine.Halt} (done : d ∈ Engine.deedsOf (r.moments audience input fuel w))
    (breaks : d.Breaks halt) (given : halt.error ≠ .nothing) :
    ∃ b w₁, r.opening w = .ok b w₁ ∧
      (∃ report w₂, b.call.Reports d report w₂ ∧ Job.haltOfFailure report w₂ = .ok halt d.after) ∧
      ((∃ e w', r.perform audience input fuel w = .ok e w' ∧ e.call = b.call ∧ e.Failed halt) ∨
        ∃ fault w', r.perform audience input fuel w = .error fault w' ∧
          ∃ event v u u', .missed event v u fault u' ∈ r.moments audience input fuel w) := by
  cases begun : r.opening w with
  | error fault w₁ =>
    rw [moments, begun] at done
    cases done
  | ok b w₁ =>
    refine ⟨b, w₁, rfl, ?_, ?_⟩
    · obtain ⟨report, w₂, reports, ⟨asks, -⟩ | ⟨-, made⟩⟩ := Call.halts_on (Request.done begun d done) (.inr breaks)
      · exact (breaks.not_asks asks).elim
      · exact ⟨report, w₂, reports, made⟩
    · obtain ⟨f, w', chronicle, course, -⟩ := chronicled audience input fuel begun
      have stops := chronicle.stops done (.inr breaks)
      have ran : r.perform audience input fuel w = Executor.run audience b.call r.level b.items b.position input fuel w₁ := by
        rw [perform_eq, Engine.Work.ok_bind begun]
      rw [Executor.run_eq course] at ran
      cases f with
      | error fault => exact .inr ⟨fault, w', ran, stops⟩
      | ok v =>
        obtain q | ⟨stepId, ending⟩ := v
        · exact stops.elim
        · cases ending with
          | halted h cursors =>
            obtain rfl : h = halt := stops
            exact .inl ⟨_, w', ran, rfl, Execution.failed_of_halted rfl given⟩
          | passed => exact stops.elim
          | signalled => exact stops.elim

namespace Engine

/-- The terms on which a step or a condition failed in a way that can be retried. -/
def Deed.broken? : Deed σ → Option Halt
  | .checked _ _ _ _ (.ok (.error halt)) _ => some halt
  | .invoked _ _ _ _ _ (.ok (.failed halt)) _ => some halt
  | _ => none

theorem Deed.breaks_of_broken {d : Deed σ} {halt : Halt} (broken : d.broken? = some halt) : d.Breaks halt := by
  cases d with
  | checked _ _ _ _ answer =>
    rcases answer with fault | h | passed
    · cases broken
    · exact Option.some.inj broken
    · cases broken
  | invoked _ _ _ _ _ answer =>
    obtain fault | outcome := answer
    · cases broken
    · cases outcome with
      | done => cases broken
      | awaits => cases broken
      | failed h => exact Option.some.inj broken

theorem exists_broken {test : Halt → Bool} {ds : List (Deed σ)} (some : ds.any (fun d => d.broken?.any test) = true) :
    ∃ d ∈ ds, ∃ halt, d.Breaks halt ∧ test halt = true := by
  obtain ⟨d, done, broken⟩ := List.any_eq_true.mp some
  obtain ⟨halt, told, passes⟩ := Option.any_eq_true _ _ |>.mp broken
  exact ⟨d, done, halt, d.breaks_of_broken told, passes⟩

end Engine

/-- A world in which a step fails for what it is given. -/
def World.lapsing : World :=
  { registry := { steps := [{ id := "report", handler := .call (.type (.error .retriable)) }]
                  schemas := [{ id := .str "lone", items := Schema.lone, space := .nothing }] } }

def Call.lapsing (v : Value) : Call := { schema := .str "lone", context := v }

/-- A failure for a number offers to retry. -/
theorem Request.lapsing_offers_retry : ∃ e w' halt,
    (Request.start (.lapsing (.int 3))).perform .silent .nothing 1 .lapsing = .ok e w' ∧ halt.error ≠ .nothing ∧
      e.Failed halt := by
  have plays : Engine.passes (fun _ _ => true)
    ((Request.start (.lapsing (.int 3))).perform .silent .nothing 1 .lapsing) = true := by decide +kernel
  obtain ⟨e, w', ran, -⟩ := Engine.exists_of_passes plays
  have breaks : (Engine.deedsOf ((Request.start (.lapsing (.int 3))).moments .silent .nothing 1 .lapsing)).any
    (fun d => d.broken?.any (fun halt => isPresent halt.error)) = true := by decide +kernel
  obtain ⟨d, done, halt, breaks, given⟩ := Engine.exists_broken breaks
  rw [Execution.isPresent_iff] at given
  obtain ⟨b, w₁, -, -, ⟨e', _, again, -, failed⟩ | ⟨_, _, again, -⟩⟩ := failure_offers_retry done breaks given
  · cases ran.symm.trans again
    exact ⟨e, w', halt, ran, given, failed⟩
  · cases ran.symm.trans again

/-- A world in which a step fails for an error and tells of another one with a number. -/
def World.failingWith (n : Int) : World :=
  { heap := { objects := #[
      .dict #[(.int 3, .ref 1)],
      .error .retriable [.str "failed"]
        #[("original_error", .ref 2), ("input_required", .nothing), ("errors", .ref 3), ("expires", .nothing)],
      .error .value [.str "failed"] #[],
      .list #[.ref 4],
      .error .value [.int n] #[]] }
    registry := { steps := [{ id := "report", handler := .call (.bound .get (.ref 0)) }]
                  schemas := [{ id := .str "lone", items := Schema.lone, space := .nothing }] } }

def Result.tellsError (r : Result) (h : Heap) : Bool :=
  Engine.passes (fun v h => match v with
    | .ref d => match h.object d with
      | .dict entries => (Entries.named? entries "error").isSome
      | _ => false
    | _ => false) (r.snapshot h)

/-- A failure for no error at all offers to resume, and its snapshot tells of no error. A failure that tells of a number
that is too long to be written has no snapshot. -/
theorem Request.failure_untold :
    (∃ e w' d halt, (Request.start (.lapsing .nothing)).perform .silent .nothing 1 .lapsing = .ok e w' ∧
      d ∈ Engine.deedsOf ((Request.start (.lapsing .nothing)).moments .silent .nothing 1 .lapsing) ∧ d.Breaks halt ∧
      e.offer? = some .resume ∧ ∃ r h, e.result w'.heap = .ok r h ∧ r.tellsError h = false) ∧
    ∃ n e w' d halt, (Request.start .lone).perform .silent .nothing 1 (.failingWith n) = .ok e w' ∧
      d ∈ Engine.deedsOf ((Request.start .lone).moments .silent .nothing 1 (.failingWith n)) ∧ d.Breaks halt ∧
      ∃ r h, e.result w'.heap = .ok r h ∧ ∀ v h', r.snapshot h ≠ .ok v h' := by
  constructor
  · have plays : Engine.passes (fun e w => e.offer? == some .resume && Engine.passes (fun r h => !r.tellsError h) (e.result w.heap))
      ((Request.start (.lapsing .nothing)).perform .silent .nothing 1 .lapsing) = true := by decide +kernel
    have breaks : (Engine.deedsOf ((Request.start (.lapsing .nothing)).moments .silent .nothing 1 .lapsing)).any
      (fun d => d.broken?.any (fun _ => true)) = true := by decide +kernel
    obtain ⟨e, w', ran, plays⟩ := Engine.exists_of_passes plays
    rw [Bool.and_eq_true, beq_iff_eq] at plays
    obtain ⟨r, h, made, untold⟩ := Engine.exists_of_passes plays.2
    obtain ⟨d, done, halt, breaks, -⟩ := Engine.exists_broken breaks
    exact ⟨e, w', d, halt, ran, done, breaks, plays.1, r, h, made, by simpa using untold⟩
  · have plays : Engine.passes
        (fun e w => Engine.passes (fun r h => !Engine.passes (fun _ _ => true) (r.snapshot h)) (e.result w.heap))
      ((Request.start .lone).perform .silent .nothing 1 (.failingWith (Int.ofNat (Nat.pow 10 5000)))) = true := by decide +kernel
    have breaks : (Engine.deedsOf ((Request.start .lone).moments .silent .nothing 1
      (.failingWith (Int.ofNat (Nat.pow 10 5000))))).any (fun d => d.broken?.any (fun _ => true)) = true := by decide +kernel
    obtain ⟨e, w', ran, plays⟩ := Engine.exists_of_passes plays
    obtain ⟨r, h, made, untold⟩ := Engine.exists_of_passes plays
    obtain ⟨d, done, halt, breaks, -⟩ := Engine.exists_broken breaks
    refine ⟨_, e, w', d, halt, ran, done, breaks, r, h, made, fun v h' taken => ?_⟩
    rw [taken] at untold
    cases untold

end Workflow
