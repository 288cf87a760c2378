import Workflow.Proofs.Stored
import Workflow.Proofs.Written

/-! How commands end. A command that finishes its call leaves no state file, one whose call halts leaves the snapshot
there, and one that fails leaves the file as it was. Only what is shown last may still fail when the file has been
changed. -/

namespace Workflow
open Fallible
open Script (Act Addr Entries Heap Value)
open Engine (Work)

namespace Result
variable {r : Result} {h h' : Heap} {v : Value} {j : Json}

/-- A snapshot is a mapping, whose last entries tell of errors. -/
theorem snapshot_made (taken : r.snapshot h = .ok v h') :
    ∃ d state error errors, v = .ref d ∧ h'.object d = .dict (r.entries state error errors) := by
  obtain ⟨indexes, h₁, -, taken⟩ := Work.bind_ok taken
  obtain ⟨state, h₂, -, taken⟩ := Work.bind_ok taken
  obtain ⟨error, h₃, -, taken⟩ := Work.bind_ok taken
  obtain ⟨errors, h₄, -, taken⟩ := Work.bind_ok taken
  cases taken
  exact ⟨_, state, error, errors, rfl, Heap.object_of_getElem? (h₄.alloc_found _)⟩

theorem mem_entries {state error errors : Value} (present : isPresent r.inputRequired) :
    (Value.str "input_required", r.inputRequired) ∈ (r.entries state error errors).toList := by
  simp [entries, presentEntry, present]

/-- If a snapshot is plain data, so is the descriptor of the input that is awaited. -/
theorem inputRequired_data (taken : r.snapshot h = .ok v h') (data : v.data h' = .ok j) :
    ∃ j', r.inputRequired.dataWithTexts h' = .ok j' := by
  by_cases present : isPresent r.inputRequired
  · obtain ⟨d, state, error, errors, rfl, found⟩ := snapshot_made taken
    obtain ⟨members, row, -⟩ := bind_ok ((Value.toJson_dict rfl found).symm.trans data)
    obtain ⟨m, told⟩ := mapM_ok_mem row (mem_entries present)
    obtain ⟨name, -, told⟩ := bind_ok told
    obtain ⟨j', told, -⟩ := bind_ok told
    exact ⟨j', Value.toJson_plain _ told (by decide) (List.nil_subset _)⟩
  · have missing : r.inputRequired = .nothing := by
      cases same : r.inputRequired with
      | nothing => rfl
      | _ => exact absurd (by rw [same]; rfl) present
    exact ⟨.null, by rw [missing]; rfl⟩

end Result

namespace Execution
variable {e : Execution} {r : Result} {h h₁ : Heap}

/-- The data of the snapshot of a call, and the heap in which they were taken. -/
def Saves (e : Execution) (h : Heap) (j : Json) (h' : Heap) : Prop :=
  ∃ r h₁ v, e.result h = .ok r h₁ ∧ r.snapshot h₁ = .ok v h' ∧ v.data h' = .ok j

theorem result_context (made : e.result h = .ok r h₁) : r.context = e.call.context := by
  cases made
  rfl

theorem result_stepId (made : e.result h = .ok r h₁) : r.stepId = .str e.report.stepId := by
  cases made
  rfl

theorem result_error {halt : Engine.Halt} {cursors : List Int} (halted : e.halted? = some (halt, cursors))
    (made : e.result h = .ok r h₁) : r.error = halt.error := by
  cases made
  simp only [view, halted]
  rfl

end Execution

namespace Command
variable {path : FilePath} {e : Execution} {w w' : World} {code : ExitCode} {fault : Fault}

/-- What a command shows last of its call cannot be written: the context of a finished call, or the error of a halted
one. The file of the state has been changed by then. -/
def Unshown (e : Execution) (w : World) : Prop :=
  (e.halted? = none ∧ ∃ r h fault, e.result w.heap = .ok r h ∧ e.call.context.dataWithTexts h = .error fault) ∨
    ∃ halt cursors j h fault, e.halted? = some (halt, cursors) ∧ isPresent halt.error ∧ e.Saves w.heap j h ∧
      halt.error.plain h = .error fault

/-- What a command comes to that takes care of its call. -/
inductive Concludes (path : FilePath) (e : Execution) (w w' : World) : ExitCode → Prop where
  | finished {j} (ended : e.halted? = none) (data : e.call.context.dataWithTexts w'.heap = .ok j)
      (gone : w'.files.exists? path = false) (shown : w'.lines = w.lines ++ [.printed j.pretty]) :
      Concludes path e w w' .finished
  | awaiting {j h} (offered : e.offer? = some .resume) (saves : e.Saves w.heap j h)
      (kept : w'.files.read path = .ok j.pretty) : Concludes path e w w' .awaiting
  | retriable {j h} (offered : e.offer? = some .retry) (saves : e.Saves w.heap j h)
      (kept : w'.files.read path = .ok j.pretty) : Concludes path e w w' .retriable

theorem jsonText_ok {write : Json → String} {v : Value} {text : String} (told : jsonText write v w = .ok text w') :
    w' = w ∧ ∃ j, v.dataWithTexts w.heap = .ok j ∧ text = write j := by
  simp only [jsonText, Bind.bind, EStateM.bind, Script.get_result] at told
  cases data : v.dataWithTexts w.heap with
  | ok j =>
    rw [data] at told
    cases told
    exact ⟨rfl, j, rfl, rfl⟩
  | error fault =>
    rw [data] at told
    cases fault <;> cases told

theorem jsonText_error {write : Json → String} {v : Value} (failed : jsonText write v w = .error fault w') :
    ∃ fault, v.dataWithTexts w.heap = .error fault := by
  simp only [jsonText, Bind.bind, EStateM.bind, Script.get_result] at failed
  cases data : v.dataWithTexts w.heap with
  | ok j =>
    rw [data] at failed
    cases failed
  | error fault => exact ⟨fault, rfl⟩

theorem shown_ok {v : Value} {text : String} (told : Job.shown v w = .ok text w') :
    w' = w ∧ v.plain w.heap = .ok text := by
  simp only [Job.shown, Job.act, Act.plain, Act.rendered, Bind.bind, EStateM.bind, Script.get_result] at told
  cases written : v.plain w.heap with
  | ok s =>
    simp only [written] at told
    cases told
    exact ⟨rfl, rfl⟩
  | error fault =>
    simp only [written] at told
    cases fault <;> cases told

theorem shown_error {v : Value} (failed : Job.shown v w = .error fault w') :
    ∃ fault, v.plain w.heap = .error fault := by
  simp only [Job.shown, Job.act, Act.plain, Act.rendered, Bind.bind, EStateM.bind, Script.get_result] at failed
  cases written : v.plain w.heap with
  | ok s =>
    simp only [written] at failed
    cases failed
  | error fault => exact ⟨fault, rfl⟩

theorem print_lines (line : String) {u : Unit} (printed : print line w = .ok u w') :
    w'.heap = w.heap ∧ w'.files = w.files ∧ w'.lines = w.lines ++ [.printed line] := by
  cases printed
  exact ⟨rfl, rfl, by simp [World.lines, JournalEntry.isLine]⟩

/-- A finished call is shown when its state is gone. -/
theorem conclude_finished (ended : e.halted? = none) : conclude path e w = (do
    let r ← Job.act e.result
    Store.clear path
    print (← jsonText Json.pretty r.context)
    return .finished : Job ExitCode) w := by
  simp only [conclude, ended]
  rfl

theorem conclude_halted {halt : Engine.Halt} {cursors : List Int} (halted : e.halted? = some (halt, cursors)) :
    conclude path e w = (do
      let r ← Job.act e.result
      let _ ← Store.save path r
      let step ← Job.shown r.stepId
      let saved := s!"State saved to {path.text}; run "
      if isPresent r.error then
        complain s!"Step '{step}' failed: {← Job.shown r.error}"
        complain (saved ++ "'stepflow resume' to retry.")
        return .retriable
      else
        print s!"Step '{step}' requires input: {← jsonText Json.compact r.inputRequired}"
        print (saved ++ "'stepflow resume --input JSON' to continue.")
        return .awaiting : Job ExitCode) w := by
  simp only [conclude, halted]
  rfl

theorem conclude_ok (concluded : conclude path e w = .ok code w') : Concludes path e w w' code := by
  cases halted : e.halted? with
  | none =>
    rw [conclude_finished halted] at concluded
    obtain ⟨r, w₁, made, concluded⟩ := Work.bind_ok concluded
    obtain ⟨_, w₂, cleared, concluded⟩ := Work.bind_ok concluded
    obtain ⟨text, w₃, told, concluded⟩ := Work.bind_ok concluded
    obtain ⟨_, w₄, printed, concluded⟩ := Work.bind_ok concluded
    obtain ⟨rfl, rfl⟩ : ExitCode.finished = code ∧ w₄ = w' := EStateM.Result.ok.inj concluded
    obtain ⟨h, result, rfl⟩ := Job.act_ok made
    obtain ⟨gone, sameHeap, sameLines⟩ := Store.clear_ok cleared
    obtain ⟨rfl, j, data, rfl⟩ := jsonText_ok told
    obtain ⟨heap, files, lines⟩ := print_lines _ printed
    rw [Execution.result_context result, ← heap] at data
    refine .finished halted data (by rw [files]; exact gone) ?_
    rw [lines, sameLines]
    rfl
  | some halt =>
    obtain ⟨halt, cursors⟩ := halt
    rw [conclude_halted halted] at concluded
    obtain ⟨r, w₁, made, concluded⟩ := Work.bind_ok concluded
    obtain ⟨v, w₂, saved, concluded⟩ := Work.bind_ok concluded
    obtain ⟨step, w₃, told, concluded⟩ := Work.bind_ok concluded
    obtain ⟨h₁, result, rfl⟩ := Job.act_ok made
    obtain ⟨h₂, j, files, note, snapshot, data, kept, rfl⟩ := Store.save_ok saved
    obtain ⟨rfl, -⟩ := shown_ok told
    have error := Execution.result_error halted result
    have saves : e.Saves w.heap j h₂ := ⟨r, h₁, v, result, snapshot, data⟩
    have offered : e.offer? = some (if isPresent halt.error then .retry else .resume) := by
      simp only [Execution.offer?, halted, Option.map_some]
    dsimp only at concluded
    rw [error] at concluded
    split at concluded
    · next present =>
      rw [if_pos present] at offered
      obtain ⟨text, w₄, told, concluded⟩ := Work.bind_ok concluded
      obtain ⟨rfl, -⟩ := shown_ok told
      cases concluded
      exact .retriable offered saves kept
    · next absent =>
      rw [if_neg absent] at offered
      obtain ⟨text, w₄, told, concluded⟩ := Work.bind_ok concluded
      obtain ⟨rfl, -⟩ := jsonText_ok told
      cases concluded
      exact .awaiting offered saves kept

/-- A command that fails to take care of its call leaves the file of the state as it was, or it could not write what it
shows last. -/
theorem conclude_error (failed : conclude path e w = .error fault w') :
    Store.Keeps (· ≠ w.files.placeOf path) w w' ∨ Unshown e w := by
  have start : Store.Keeps (· ≠ w.files.placeOf path) w w := .refl w
  cases halted : e.halted? with
  | none =>
    rw [conclude_finished halted] at failed
    obtain failed | ⟨r, w₁, made, failed⟩ := Work.bind_error failed
    · exact .inl (start.quietly ((Quiet.patient.act _).error failed))
    obtain ⟨h, result, rfl⟩ := Job.act_ok made
    obtain failed | ⟨_, w₂, cleared, failed⟩ := Work.bind_error failed
    · left
      rw [Store.Keeps, Store.clear_error failed]
      exact start
    obtain failed | ⟨text, w₃, told, failed⟩ := Work.bind_error failed
    · obtain ⟨fault, unwritten⟩ := jsonText_error failed
      rw [(Store.clear_ok cleared).2.1, Execution.result_context result] at unwritten
      exact .inr (.inl ⟨halted, r, h, fault, result, unwritten⟩)
    · cases failed
  | some halt =>
    obtain ⟨halt, cursors⟩ := halt
    rw [conclude_halted halted] at failed
    obtain failed | ⟨r, w₁, made, failed⟩ := Work.bind_error failed
    · exact .inl (start.quietly ((Quiet.patient.act _).error failed))
    obtain ⟨h₁, result, rfl⟩ := Job.act_ok made
    obtain failed | ⟨v, w₂, saved, failed⟩ := Work.bind_error failed
    · have left := Store.save_error failed
      exact .inl left
    obtain ⟨h₂, j, files, note, snapshot, data, kept, rfl⟩ := Store.save_ok saved
    have error := Execution.result_error halted result
    obtain failed | ⟨step, w₃, told, failed⟩ := Work.bind_error failed
    · rw [Execution.result_stepId result] at failed
      cases failed
    obtain ⟨rfl, -⟩ := shown_ok told
    dsimp only at failed
    rw [error] at failed
    split at failed
    · next present =>
      obtain failed | ⟨text, w₄, told, failed⟩ := Work.bind_error failed
      · obtain ⟨fault, unwritten⟩ := shown_error failed
        exact .inr (.inr ⟨halt, cursors, j, h₂, fault, halted, present, ⟨r, h₁, v, result, snapshot, data⟩, unwritten⟩)
      · cases failed
    · obtain failed | ⟨text, w₄, told, failed⟩ := Work.bind_error failed
      · obtain ⟨fault, unwritten⟩ := jsonText_error failed
        obtain ⟨j', written⟩ := Result.inputRequired_data snapshot data
        rw [written] at unwritten
        cases unwritten
      · cases failed

/-! Commands. -/

/-- The call of a new run, with all that is done before it. -/
def started (i : Invocation) (schema : String) (assignments : List String) (file : Option String) : Job Execution := do
  loadWorkflow i.workflow
  listen i
  let context ← contextOf file assignments
  let input ← inputOf i.input
  Executor.start audience { schema := .str schema, context, listener := none } input

/-- The call that goes on from a snapshot, with all that is done before it. -/
def resumed (i : Invocation) (snapshot : Entries) : Job Execution := do
  loadWorkflow i.workflow
  listen i
  let schema := Document.valueOf snapshot "schema_id"
  let state ← State.ofData (Document.valueOf snapshot "state")
  let input ← inputOf i.input
  let verb := if (Entries.named? snapshot "error").isSome then "Retrying" else "Resuming"
  let step ← Job.shown (Document.valueOf snapshot "step_id")
  Job.log .info resumeLogger s!"{verb} step '{step}' of '{← Job.shown schema}'"
  Executor.resumeState audience schema (pure state) input none

/-- The call of a command came to something. -/
inductive Called (i : Invocation) (files : FileTree) (e : Execution) (w : World) : Prop where
  | run {schema assignments file} (asked : i.request = .run schema assignments file)
      (ran : started i schema assignments file { files } = .ok e w) : Called i files e w
  | resume {snapshot w₀} (asked : i.request = .resume)
      (loaded : Store.load (FilePath.ofText i.stateFile) { files } = .ok snapshot w₀)
      (ran : resumed i snapshot w₀ = .ok e w) : Called i files e w

section
variable {S : World → World → Prop} (patient : Patient S)
include patient

theorem started_along (i : Invocation) (schema : String) (assignments : List String) (file : Option String) :
    Along S (started i schema assignments file) := by
  refine patient.bind (patient.loadWorkflow _) (fun _ => patient.bind (patient.listen _) (fun _ => ?_))
  refine patient.bind (patient.contextOf _ _) (fun context => patient.bind (patient.inputOf _) (fun input => ?_))
  exact patient.start (fun _ _ => trivial) patient.audience _ _ _

theorem resumed_along (i : Invocation) (snapshot : Entries) : Along S (resumed i snapshot) := by
  refine patient.bind (patient.loadWorkflow _) (fun _ => patient.bind (patient.listen _) (fun _ => ?_))
  refine patient.bind (patient.ofData (fun _ _ _ => trivial) _) (fun state => patient.bind (patient.inputOf _) (fun input => ?_))
  refine patient.bind (patient.text _) (fun step => patient.bind (patient.text _) (fun schema => ?_))
  refine patient.bind (patient.log _ _ _) (fun _ => ?_)
  exact patient.resumeState (fun _ _ => trivial) patient.audience _ (patient.pure _) _ _ _

theorem reject_along (logger : String) (problems : List Problem) : Along S (reject logger problems) :=
  patient.bind (patient.forM (fun _ => patient.log _ _ _) _) (fun _ => patient.pure _)

theorem told_along (f : Fault) : Along S (told f) := by
  rw [told.eq_def]
  split
  · exact patient.text _
  · exact patient.bind patient.get (fun _ => patient.pure _)

theorem settle_along (logger refusal : String) (f : Fault) : Along S (settle logger refusal f) := by
  refine patient.bind patient.get (fun w => ?_)
  dsimp only
  split
  · exact reject_along patient _ _
  · exact patient.bind (told_along patient _) (fun _ => patient.bind (patient.log _ _ _) (fun _ => patient.pure _))
  · split
    · exact patient.bind (told_along patient _) (fun _ => patient.bind (patient.log _ _ _) (fun _ => patient.pure _))
    split
    · exact patient.bind (told_along patient _) (fun _ => patient.bind (patient.log _ _ _) (fun _ => patient.pure _))
    split
    · exact patient.fail _
    · exact patient.bind (told_along patient _) (fun _ => patient.bind (fun w => patient.logged w _) (fun _ => patient.pure _))

theorem settleState_along (f : Fault) : Along S (settleState f) := by
  refine patient.bind patient.get (fun w => ?_)
  dsimp only
  split
  · exact patient.bind (told_along patient _) (fun _ => patient.bind (patient.log _ _ _) (fun _ => patient.pure _))
  · exact patient.fail _

end

theorem run_eq (i : Invocation) (schema : String) (assignments : List String) (file : Option String) :
    run i schema assignments file = started i schema assignments file >>= conclude (FilePath.ofText i.stateFile) := by
  simp only [run, started, bind_assoc]

theorem resume_eq (i : Invocation) (snapshot : Entries) :
    resume i snapshot = resumed i snapshot >>= conclude (FilePath.ofText i.stateFile) := by
  simp only [resume, resumed, bind_assoc]

/-- Whatever code some work gives, it is one of a failure. -/
def Fails (job : Job ExitCode) : Prop := ∀ w code w', job w = .ok code w' → code = .failed ∨ code = .refused

namespace Fails

theorem after {x : Job α} {k : α → Job ExitCode} (rest : ∀ a, Fails (k a)) : Fails (x >>= k) := by
  intro w code w' ran
  obtain ⟨a, w₁, -, ran⟩ := Work.bind_ok ran
  exact rest a w₁ code w' ran

theorem failed : Fails (pure .failed) := by
  intro w code w' ran
  cases ran
  exact .inl rfl

theorem refused : Fails (pure .refused) := by
  intro w code w' ran
  cases ran
  exact .inr rfl

theorem fail (f : Fault) : Fails (Job.fail f) := by
  intro w code w' ran
  cases ran

theorem settle (logger refusal : String) (f : Fault) : Fails (Command.settle logger refusal f) := by
  refine .after (fun w => ?_)
  dsimp only
  split
  · exact .after (fun _ => .refused)
  · exact .after (fun _ => .after (fun _ => .failed))
  · split
    · exact .after (fun _ => .after (fun _ => .failed))
    split
    · exact .after (fun _ => .after (fun _ => .refused))
    split
    · exact .fail _
    · exact .after (fun _ => .after (fun _ => .failed))

theorem settleState (f : Fault) : Fails (Command.settleState f) := by
  refine .after (fun w => ?_)
  dsimp only
  split
  · exact .after (fun _ => .after (fun _ => .failed))
  · exact .fail _

end Fails

/-- A command either takes care of its call, or reports what the call or taking care of it failed in. -/
theorem withSettled_cases (settle : Fault → Job ExitCode) (call : Job Execution) (path : FilePath) (w : World) :
    (∃ e w₁ code w', call w = .ok e w₁ ∧ conclude path e w₁ = .ok code w' ∧
      withSettled settle (call >>= conclude path) w = .ok code w') ∨
    ∃ fault w₂, withSettled settle (call >>= conclude path) w = settle fault w₂ ∧
      (call w = .error fault w₂ ∨ ∃ e w₁, call w = .ok e w₁ ∧ conclude path e w₁ = .error fault w₂) := by
  cases ran : (call >>= conclude path) w with
  | ok code w' =>
    obtain ⟨e, w₁, called, concluded⟩ := Work.bind_ok ran
    refine .inl ⟨e, w₁, code, w', called, concluded, ?_⟩
    simp only [withSettled, Bind.bind, EStateM.bind, Job.attempt] at ran ⊢
    rw [ran]
    rfl
  | error fault w₂ =>
    refine .inr ⟨fault, w₂, ?_, Work.bind_error ran⟩
    simp only [withSettled, Bind.bind, EStateM.bind, Job.attempt] at ran ⊢
    rw [ran]

/-- A failing command leaves the file of the state as it was, or it could not write what it shows last. -/
def Spoils (i : Invocation) (files : FileTree) (left : World) : Prop :=
  left.files.textAt (files.placeOf (FilePath.ofText i.stateFile)) = files.textAt (files.placeOf (FilePath.ofText i.stateFile)) ∨
    ∃ e w, Called i files e w ∧ Unshown e w

theorem Spoils.settled {i : Invocation} {files : FileTree} {settle : Fault → Job ExitCode} {call : Job Execution}
    (quiet : ∀ f, Along Quiet (settle f)) (silent : Along Quiet call) (before : w.files = files)
    (called : ∀ e w₁, call w = .ok e w₁ → Called i files e w₁) {w₂ : World}
    (failed : call w = .error fault w₂ ∨
      ∃ e w₁, call w = .ok e w₁ ∧ conclude (FilePath.ofText i.stateFile) e w₁ = .error fault w₂) :
    Spoils i files (leftBy (settle fault w₂)) := by
  have after := (quiet fault w₂).1
  obtain failed | ⟨e, w₁, ran, failed⟩ := failed
  · exact .inl (by rw [after, (silent.error failed).1, before])
  · have same := (silent.ok ran).1.trans before
    obtain kept | unshown := conclude_error failed
    · rw [Store.Keeps, same] at kept
      exact .inl (by rw [after]; exact kept.texts _ (fun apart => apart rfl))
    · exact .inr ⟨e, w₁, called e w₁ ran, unshown⟩

/-- How a command ends that starts a run or goes on with one. -/
theorem perform_cases {i : Invocation} (calls : i.request ≠ .validate) (files : FileTree) :
    (∃ e w₁ code w', Called i files e w₁ ∧ conclude (FilePath.ofText i.stateFile) e w₁ = .ok code w' ∧
      perform i { files } = .ok code w') ∨
    ((∀ code w', perform i { files } = .ok code w' → code = .failed ∨ code = .refused) ∧
      Spoils i files (leftBy (perform i { files }))) := by
  cases asked : i.request with
  | validate => exact absurd asked calls
  | run schema assignments file =>
    have performed : perform i { files } = withSettled (settle runLogger "Validation error")
        (started i schema assignments file >>= conclude (FilePath.ofText i.stateFile)) { files } := by
      rw [← run_eq]
      simp only [perform, asked]
    rw [performed]
    obtain ⟨e, w₁, code, w', called, concluded, ran⟩ | ⟨fault, w₂, ran, failed⟩ := withSettled_cases
      (settle runLogger "Validation error") (started i schema assignments file) (FilePath.ofText i.stateFile) { files }
    · exact .inl ⟨e, w₁, code, w', .run asked called, concluded, ran⟩
    · rw [ran]
      exact .inr ⟨fun code w' => Fails.settle _ _ fault w₂ code w', .settled (settle_along Quiet.patient _ _)
        (started_along Quiet.patient _ _ _ _) rfl (fun _ _ called => .run asked called) failed⟩
  | resume =>
    cases loaded : Store.load (FilePath.ofText i.stateFile) { files } with
    | ok snapshot w₀ =>
      have performed : perform i { files } = withSettled (settle resumeLogger "Invalid state")
          (resumed i snapshot >>= conclude (FilePath.ofText i.stateFile)) w₀ := by
        rw [← resume_eq]
        simp only [perform, asked, Bind.bind, EStateM.bind, Job.attempt, loaded]
      rw [performed]
      obtain ⟨e, w₁, code, w', called, concluded, ran⟩ | ⟨fault, w₂, ran, failed⟩ := withSettled_cases
        (settle resumeLogger "Invalid state") (resumed i snapshot) (FilePath.ofText i.stateFile) w₀
      · exact .inl ⟨e, w₁, code, w', .resume asked loaded called, concluded, ran⟩
      · rw [ran]
        exact .inr ⟨fun code w' => Fails.settle _ _ fault w₂ code w', .settled (settle_along Quiet.patient _ _)
          (resumed_along Quiet.patient _ _) ((Quiet.patient.load _).ok loaded).1
          (fun _ _ called => .resume asked loaded called) failed⟩
    | error fault w₂ =>
      have performed : perform i { files } = settleState fault w₂ := by
        simp only [perform, asked, Bind.bind, EStateM.bind, Job.attempt, loaded]
      rw [performed]
      have quiet := Quiet.patient.trans ((Quiet.patient.load _).error loaded) (settleState_along Quiet.patient fault w₂)
      exact .inr ⟨fun code w' => Fails.settleState fault w₂ code w', .inl (by rw [quiet.1])⟩

theorem lines_shown (level : LogLevel) (w : World) :
    ({ w with journal := w.journal.filter (isShown level) } : World).lines = w.lines := by
  simp only [World.lines, Array.toList_filter, List.filter_filter]
  refine List.filter_congr (fun entry _ => ?_)
  cases entry <;> simp [JournalEntry.isLine, isShown]

theorem execute_ok {args : List String} {i : Invocation} {files : FileTree}
    (invoked : Invocation.ofArguments? false args = .ok (some i)) (performed : perform i { files } = .ok code w) :
    execute args files = (.exit code, { w with journal := w.journal.filter (isShown i.level) }) := by
  simp only [execute, invoked, performed]

theorem execute_error {args : List String} {i : Invocation} {files : FileTree}
    (invoked : Invocation.ofArguments? false args = .ok (some i)) (performed : perform i { files } = .error fault w) :
    execute args files = (.fault fault, { w with journal := w.journal.filter (isShown i.level) }) := by
  simp only [execute, invoked, performed]

/-- What the outcome of a command tells of its call, and of the file of its state. If it is that of a finished call, there
is no such file, and the context is all that is shown. If it is that of a halted call, the file holds the snapshot of the
call. In any other case the file is as it was, unless what is shown last of the call cannot be written. -/
def Tells (i : Invocation) (files : FileTree) (outcome : Outcome) (w : World) : Prop :=
  let path := FilePath.ofText i.stateFile
  match outcome with
  | .exit .finished => ∃ e w₁ j, Called i files e w₁ ∧ e.halted? = none ∧ e.call.context.dataWithTexts w.heap = .ok j ∧
      w.files.exists? path = false ∧ w.lines = [.printed j.pretty]
  | .exit .awaiting => ∃ e w₁ j h, Called i files e w₁ ∧ e.offer? = some .resume ∧ e.Saves w₁.heap j h ∧
      w.files.read path = .ok j.pretty
  | .exit .retriable => ∃ e w₁ j h, Called i files e w₁ ∧ e.offer? = some .retry ∧ e.Saves w₁.heap j h ∧
      w.files.read path = .ok j.pretty
  | _ => w.files.textAt (files.placeOf path) = files.textAt (files.placeOf path) ∨ ∃ e w₁, Called i files e w₁ ∧ Unshown e w₁

/-- A test of how a command ends. -/
def ends (test : Outcome → World → Bool) (ended : Outcome × World) : Bool := test ended.1 ended.2

end Command

end Workflow
