import Workflow.Proofs.Concluding
import Workflow.Proofs.ExitCodes
import Workflow.Proofs.Resumptions

/-! Chains of commands. A run and the resumptions that follow it, each a process of its own that begins with what the one
before has left in the file of the state, agree call by call with the calls of one process that goes on. -/

namespace Workflow.Command
open Script (Addr Entries Heap Renaming Value)
open Engine (Work)

/-- What the commands of a chain have in common: the document, the schema and its context, and the file of the state. -/
structure Course where
  workflow : String
  schema : String
  assignments : List String := []
  contextFile : Option String := none
  stateFile : String

namespace Course

def path (c : Course) : FilePath := .ofText c.stateFile

def document (c : Course) (files : FileTree) : FilePath := (FilePath.ofText c.workflow).resolve files.home

/-- The request of the first command. -/
def first (c : Course) : Request := .run c.schema c.assignments c.contextFile

/-- Arguments stand for a command of a course. -/
structure Asks (c : Course) (args : List String) (i : Invocation) (request : Request) : Prop where
  invoked : Invocation.ofArguments? false args = .ok (some i)
  request : i.request = request
  workflow : i.workflow = c.workflow
  stateFile : i.stateFile = c.stateFile

end Course

/-- A halted call can be kept in a file: its snapshot is plain data, its errors are told without addresses, and its context
lies apart from all that is registered, which is as it was when the document was loaded. -/
structure Keepable (w₀ : World) (e : Execution) (w : World) : Prop where
  saves : ∃ j h, e.Saves w.heap j h ∧ j.isPlain = true
  tellable : e.Tellable w.heap
  apart : ∃ j, e.Apart w₀ j w

/-- What a call comes to can be kept if it has halted, and its context is plain data if it has finished. -/
def Fit (w₀ : World) (r : Except Fault Execution) (w : World) : Prop :=
  ∀ e, r = .ok e → (e.offer? = none → ∃ j, e.call.context.data w.heap = .ok j) ∧ (∀ o, e.offer? = some o → Keepable w₀ e w)

/-- A command ends as a call does in another process. Of a finished call it shows the context and leaves no state. Of a halted
one it leaves the snapshot, which is loaded as it was, and its code tells how the call can go on. If the call fails, so does
the command. -/
inductive Agrees (path : FilePath) : Except Fault Execution → World → Outcome → World → Prop where
  | finished {e w u j} (finished : e.offer? = none) (data : e.call.context.data w.heap = .ok j)
      (gone : u.files.exists? path = false) (shown : u.lines = [.printed j.pretty]) : Agrees path (.ok e) w (.exit .finished) u
  | halted {e w u o j h entries k} (offered : e.offer? = some o) (saves : e.Saves w.heap j h)
      (kept : u.files.read path = .ok j.pretty) (loads : Store.Loads path j { files := u.files } entries k) :
      Agrees path (.ok e) w (.exit (Offered o)) u
  | failed {fault w outcome u} (failed : ∀ code, outcome = .exit code → code = .failed ∨ code = .refused) :
      Agrees path (.error fault) w outcome u

/-- What a halted call has left where a command was that agrees with it. -/
structure Left (c : Course) (files : FileTree) (w₀ : World) (e : Execution) (w u : World) : Prop where
  later : World.Later w₀ w
  changes : FileTree.Changes (files.Used c.path) files u.files
  writable : u.files.Writable c.path
  kept : ∃ jc j, u.files.read c.path = .ok j.pretty ∧ j.isPlain = true ∧
    Result.Snapshot c.schema e.report.stepId (State.json jc e.view.cursors) j ∧ e.Apart w₀ jc w

/-! One command. -/

variable {f : Renaming} {c : Course} {files : FileTree} {w₀ w u : World}

/-- The errors of a call that can be told are missing, or a list that is there. -/
theorem errors_listed {e e' : Execution} {h h' : Heap} (sent : Execution.Sent f e e') (renamed : h.Renamed f h')
    (tellable : e.Tellable h) :
    e.halt.errors = .nothing ∨ ∃ a items, e.halt.errors = .ref a ∧ h.objects[a]? = some (.list items) := by
  obtain none | ⟨items, listed, -⟩ := tellable.errors
  · exact .inl none
  · have covers := sent.view.2.2.2.errors.1
    cases same : e.halt.errors with
    | ref a =>
      rw [same] at covers listed
      obtain ⟨o, found, -, -⟩ := renamed.object a (Renaming.covers_ref.mp covers)
      simp only [Value.listItems?, Heap.object_of_getElem? found] at listed
      cases o with
      | list items => exact .inr ⟨a, items, rfl, found⟩
      | _ => cases listed
    | _ =>
      rw [same] at listed
      cases listed

/-- What a command leaves that takes care of a halted call. -/
theorem halted_left {e e' : Execution} {o : Offer} {u₁ : World} (sent : Execution.Sent f e e') (renamed : World.Renamed f w u₁)
    (named : e.call.schema = .str c.schema) (offered : e.offer? = some o) (keepable : Keepable w₀ e w)
    (registry : w.registry = w₀.registry) (same : u₁.files = files) (writable : files.Writable c.path) :
    ∃ u₂ j h entries k, conclude c.path e' u₁ = .ok (Offered o) u₂ ∧ e.Saves w.heap j h ∧ u₂.files.read c.path = .ok j.pretty ∧
      Store.Loads c.path j { files := u₂.files } entries k ∧ Left c files w₀ e w u₂ := by
  obtain ⟨j, h, saves, plain⟩ := keepable.saves
  obtain ⟨jc, apart⟩ := keepable.apart
  obtain ⟨as, tree, outside⟩ := apart.tree
  obtain ⟨u₂, concluded, kept, changes, still⟩ :=
    conclude_halts sent renamed.heap (same.symm ▸ writable) offered saves keepable.tellable
  obtain ⟨cursors, halted, -⟩ := Execution.halted_of_offer offered
  have snapshot := saves.snapshot halted named (errors_listed sent renamed.heap keepable.tellable) tree
  obtain ⟨entries, k, loads, -⟩ := Store.load_snapshot (w := { files := u₂.files }) kept plain snapshot rfl
  have position : e.view.cursors = cursors := by simp only [Execution.view, halted, Option.map_some, Option.getD_some]
  subst same
  refine ⟨u₂, j, h, entries, k, concluded, saves, kept, loads, ⟨registry, renamed.evaluators.1, renamed.heap.idle.1⟩, changes,
    still, jc, j, kept, plain, ?_, apart⟩
  rw [position]
  exact snapshot

/-- A command whose call has failed fails. -/
theorem failing_ends {settle : Fault → Job ExitCode} {args : List String} {i : Invocation} {fault : Fault} {u₁ : World}
    {outcome : Outcome} (invoked : Invocation.ofArguments? false args = .ok (some i)) (fails : ∀ f, Fails (settle f))
    (failed : perform i { files } = settle fault u₁) (ended : execute args files = (outcome, u)) (code : ExitCode)
    (same : outcome = .exit code) : code = .failed ∨ code = .refused := by
  cases settled : settle fault u₁ with
  | ok code' u₂ =>
    rw [execute_ok invoked (failed.trans settled)] at ended
    cases ended
    cases same
    exact fails fault u₁ code u₂ settled
  | error fault' u₂ =>
    rw [execute_error invoked (failed.trans settled)] at ended
    cases ended
    cases same

/-- A command whose call comes to the same as a call in another process agrees with it. -/
theorem ends_agree {settle : Fault → Job ExitCode} {call : Job Execution} {start : World} {args : List String} {i : Invocation}
    {r : Except Fault Execution} {outcome : Outcome} (invoked : Invocation.ofArguments? false args = .ok (some i))
    (performed : perform i { files } = withSettled settle (call >>= conclude c.path) start) (fails : ∀ f, Fails (settle f))
    (quiet : Quiet { files } start) (silent : Along Quiet call)
    (carried : ∃ f, Carried World.Renamed Fault.Sent f Execution.Sent (Engine.answered r w) (call start))
    (named : ∀ e, r = .ok e → e.call.schema = .str c.schema) (registry : w.registry = w₀.registry) (fit : Fit w₀ r w)
    (writable : files.Writable c.path)
    (ended : execute args files = (outcome, u)) :
    Agrees c.path r w outcome u ∧ ∀ e, r = .ok e → e.offer?.isSome → Left c files w₀ e w u := by
  obtain ⟨f, carried⟩ := carried
  generalize called : call start = found at carried
  cases r with
  | error fault =>
    cases carried with
    | @error _ _ fault' _ u₁ _ _ _ =>
      have failed : perform i { files } = settle fault' u₁ :=
        performed.trans (withSettled_error (Work.error_bind called))
      exact ⟨.failed (failing_ends invoked fails failed ended), fun _ none => by cases none⟩
  | ok e =>
    cases carried with
    | @ok g _ e' _ u₁ within sent renamed =>
      have before := Quiet.patient.trans quiet (silent.ok called)
      have same : u₁.files = files := before.1
      have concluded {code : ExitCode} {u₂ : World} (ran : conclude c.path e' u₁ = .ok code u₂) :
          execute args files = (.exit code, { u₂ with journal := u₂.journal.filter (isShown i.level) }) :=
        execute_ok invoked (performed.trans (withSettled_ok ((Work.ok_bind called).trans ran)))
      obtain ⟨finishes, halts⟩ := fit e rfl
      cases offered : e.offer? with
      | none =>
        obtain ⟨j, data⟩ := finishes offered
        obtain ⟨u₂, ran, gone, shown⟩ := conclude_finishes sent renamed.heap (same.symm ▸ writable) offered data
        rw [concluded ran] at ended
        cases ended
        refine ⟨.finished offered data gone ?_, fun _ same none => ?_⟩
        · rw [lines_shown, shown, before.2]
          rfl
        · cases same
          rw [offered] at none
          cases none
      | some o =>
        obtain ⟨u₂, j, h, entries, k, ran, saves, kept, loads, left⟩ :=
          halted_left sent renamed (named e rfl) offered (halts o offered) registry same writable
        rw [concluded ran] at ended
        cases ended
        refine ⟨.halted offered saves kept loads, fun _ same _ => ?_⟩
        cases same
        exact ⟨left.later, left.changes, left.writable, left.kept⟩

/-! Commands one after another. -/

/-- A chain of commands beside a chain of calls in one process, in whose world the document has been loaded. The first call
starts the schema. Each later one goes on from where the call before has halted, with an input that is read from the same text
as that of the command. All that the calls do is portable, and what they come to is fit for being kept. -/
inductive Chain (c : Course) (files : FileTree) (w₀ : World) : Except Fault Execution → World → Outcome → World → Prop where
  | run {args i context w₁ input w₂ r w outcome u} (asks : c.Asks args i c.first)
      (made : contextOf c.contextFile c.assignments w₀ = .ok context w₁) (given : inputOf i.input w₁ = .ok input w₂)
      (portable : ∀ d ∈ Engine.deedsOf ((Request.start { schema := .str c.schema, context }).moments audience input loopFuel w₂),
        d.Portable { schema := .str c.schema, context })
      (called : Executor.start audience { schema := .str c.schema, context } input loopFuel w₂ = Engine.answered r w)
      (fit : Fit w₀ r w) (ended : execute args files = (outcome, u)) : Chain c files w₀ r w outcome u
  | resume {e v before s args i input w₁ r w outcome u} (chain : Chain c files w₀ (.ok e) v before s) (halted : e.offer?.isSome)
      (asks : c.Asks args i .resume) (given : inputOf i.input v = .ok input w₁)
      (portable : ∀ d ∈ Engine.deedsOf ((Request.goOn e).moments audience input loopFuel w₁), d.Portable e.call)
      (called : Executor.goOn audience e input loopFuel w₁ = Engine.answered r w)
      (fit : Fit w₀ r w) (ended : execute args s.files = (outcome, u)) : Chain c files w₀ r w outcome u

/-- What holds of each call of a chain. -/
structure Holds (c : Course) (files : FileTree) (w₀ : World) (r : Except Fault Execution) (w : World) (outcome : Outcome)
    (u : World) : Prop where
  agrees : Agrees c.path r w outcome u
  named : ∀ e, r = .ok e → e.call.schema = .str c.schema
  reached : ∀ e, r = .ok e → ∃ items ds, Reached audience c.schema items e ds w ∧ w₀.Registers c.schema items
  left : ∀ e, r = .ok e → e.offer?.isSome → Left c files w₀ e w u

theorem perform_started {i : Invocation} {schema : String} {assignments : List String} {file : Option String}
    (asked : i.request = .run schema assignments file) : perform i { files } = withSettled (settle runLogger "Validation error")
      (started i schema assignments file >>= conclude (FilePath.ofText i.stateFile)) { files } := by
  rw [← run_eq]
  simp only [perform, asked]

theorem perform_resumed {i : Invocation} {snapshot : Script.Entries} {w₁ : World} (asked : i.request = .resume)
    (loaded : Store.load (FilePath.ofText i.stateFile) { files } = .ok snapshot w₁) :
    perform i { files } = withSettled (settle resumeLogger "Invalid state")
      (resumed i snapshot >>= conclude (FilePath.ofText i.stateFile)) w₁ := by
  rw [← resume_eq]
  simp only [perform, asked, Bind.bind, EStateM.bind, Job.attempt, loaded]

theorem Course.Asks.path {args : List String} {i : Invocation} {request : Request} (asks : c.Asks args i request) :
    FilePath.ofText i.stateFile = c.path := congrArg FilePath.ofText asks.stateFile

theorem audience_same : audience.Heeds SameRegistry := SameRegistry.tolerant.logging (fun _ _ _ => trivial)

theorem goOn_same (e : Execution) (input : Value) : Along SameRegistry (Executor.goOn audience e input loopFuel) := by
  intro v
  rw [Executor.goOn_eq_resumeState]
  exact SameRegistry.tolerant.resumeState (fun _ _ => trivial) audience_same _ (SameRegistry.tolerant.pure _) _ _ _ v

theorem registry_same {job : Job Execution} {r : Except Fault Execution} {v : World} (along : Along SameRegistry job)
    (called : job v = Engine.answered r w) : w.registry = v.registry := by
  have same := along v
  rw [called] at same
  cases r <;> exact same

/-- The cursors of a call that has halted stand for a position. -/
theorem cursors_positive {items : Schema} {e : Execution} {ds : List (Engine.Deed World)}
    (reached : Reached audience c.schema items e ds w) (halted : e.offer?.isSome) : ∀ n ∈ e.view.cursors, 0 ≤ n := by
  obtain ⟨o, offered⟩ := Option.isSome_iff_exists.mp halted
  obtain ⟨cursors, ended, -⟩ := Execution.halted_of_offer offered
  obtain ⟨position, rfl, -⟩ := reached.halted ended
  intro n member
  simp only [Execution.view, ended, Option.map_some, Option.getD_some] at member
  obtain ⟨k, -, rfl⟩ := List.mem_map.mp member
  exact Int.natCast_nonneg k

/-- The document is read again as it was, since only the file of the state has changed. -/
theorem Left.document {e : Execution} (left : Left c files w₀ e w u) (loaded : loadWorkflow c.workflow { files } = .ok () w₀)
    (apart : ¬ files.Used c.path (files.placeOf (c.document files))) :
    u.files.read (c.document u.files) = files.read (c.document files) := by
  obtain ⟨text, found⟩ := loadWorkflow_reads loaded
  have home : c.document u.files = c.document files := by rw [Course.document, left.changes.home, Course.document]
  rw [home]
  exact (left.changes.read apart found).trans found.symm

/-- What a later command has left is left of the whole chain. -/
theorem Left.behind {e e' : Execution} {v s : World} (left : Left c files w₀ e v s) (now : Left c s.files w₀ e' w u) :
    Left c files w₀ e' w u := by
  refine ⟨now.later, left.changes.trans (now.changes.mono (fun place used => ?_)), now.writable, now.kept⟩
  simpa only [FileTree.Used, left.changes.placeOf] using used

theorem Holds.run {args : List String} {i : Invocation} {context input : Value} {w₁ w₂ : World} {r : Except Fault Execution}
    {outcome : Outcome} (loaded : loadWorkflow c.workflow { files } = .ok () w₀) (writable : files.Writable c.path)
    (asks : c.Asks args i c.first) (made : contextOf c.contextFile c.assignments w₀ = .ok context w₁)
    (given : inputOf i.input w₁ = .ok input w₂)
    (portable : ∀ d ∈ Engine.deedsOf ((Request.start { schema := .str c.schema, context }).moments audience input loopFuel w₂),
      d.Portable { schema := .str c.schema, context })
    (called : Executor.start audience { schema := .str c.schema, context } input loopFuel w₂ = Engine.answered r w)
    (fit : Fit w₀ r w) (ended : execute args files = (outcome, u)) : Holds c files w₀ r w outcome u := by
  have before : w₂.registry = w₀.registry :=
    SameRegistry.tolerant.trans ((SameRegistry.tolerant.contextOf _ _).ok made) ((SameRegistry.tolerant.inputOf _).ok given)
  have registry : w.registry = w₀.registry :=
    (registry_same (SameRegistry.tolerant.start (fun _ _ => trivial) audience_same _ _ _) called).trans before
  obtain ⟨f, carried⟩ := started_carried (i := i) (asks.workflow ▸ loaded) made given portable
  rw [called] at carried
  have performed : perform i { files } = _ := perform_started asks.request
  rw [asks.path] at performed
  have named : ∀ e, r = .ok e → e.call.schema = .str c.schema := by
    rintro e rfl
    obtain ⟨b, _, begun, same, -⟩ := Request.returned (r := .start { schema := .str c.schema, context }) called
    rw [same, Request.opening_start begun]
  obtain ⟨agrees, left⟩ := ends_agree asks.invoked performed (Fails.settle _ _) ⟨rfl, rfl⟩
    (started_along Quiet.patient _ _ _ _) ⟨f, carried⟩ named registry fit writable ended
  refine ⟨agrees, named, ?_, left⟩
  rintro e rfl
  cases registered : w₂.registry.schema? (.str c.schema) with
  | none =>
    have failed : Executor.start audience { schema := .str c.schema, context } input loopFuel w₂ = _ :=
      Work.error_bind (Executor.schema_missing registered)
    cases called.symm.trans failed
  | some found =>
    exact ⟨found.items, _, .started rfl ⟨found, registered, rfl⟩ called, found, before ▸ registered, rfl⟩

theorem Holds.resume {args : List String} {i : Invocation} {e : Execution} {input : Value} {v before w₁ : World}
    {s outcome : Outcome} {r : Except Fault Execution} (loaded : loadWorkflow c.workflow { files } = .ok () w₀)
    (apart : ¬ files.Used c.path (files.placeOf (c.document files))) (holds : Holds c files w₀ (.ok e) v s before)
    (halted : e.offer?.isSome) (asks : c.Asks args i .resume) (given : inputOf i.input v = .ok input w₁)
    (portable : ∀ d ∈ Engine.deedsOf ((Request.goOn e).moments audience input loopFuel w₁), d.Portable e.call)
    (called : Executor.goOn audience e input loopFuel w₁ = Engine.answered r w)
    (fit : Fit w₀ r w) (ended : execute args before.files = (outcome, u)) : Holds c files w₀ r w outcome u := by
  have left := holds.left e rfl halted
  obtain ⟨jc, j, kept, plain, snapshot, context⟩ := left.kept
  obtain ⟨items, ds, reached, registers⟩ := holds.reached e rfl
  obtain ⟨entries, base, loads, idle⟩ := Store.load_snapshot (w := { files := before.files }) kept plain snapshot rfl
  obtain ⟨state, restored⟩ := loads.restored snapshot
  have again : before.files.read ((FilePath.ofText i.workflow).resolve before.files.home) =
      files.read ((FilePath.ofText i.workflow).resolve files.home) := asks.workflow ▸ left.document loaded apart
  obtain ⟨f, carried⟩ := resumed_carried idle again (asks.workflow ▸ loaded) left.later context (holds.named e rfl)
    (cursors_positive reached halted) restored given portable
  rw [called] at carried
  have loaded' := loads.loaded
  rw [← asks.path] at loaded'
  have performed := perform_resumed asks.request loaded'
  rw [asks.path] at performed
  have named : ∀ e', r = .ok e' → e'.call.schema = .str c.schema := by
    rintro e' rfl
    obtain ⟨b, _, begun, called', -⟩ := Request.returned (r := .goOn e) called
    rw [called', Request.opening_goOn begun]
    exact holds.named e rfl
  have kept : w₁.registry = w₀.registry := ((SameRegistry.tolerant.inputOf _).ok given).trans left.later.registry
  have registry : w.registry = w₀.registry := (registry_same (goOn_same e input) called).trans kept
  have quiet : Quiet { files := before.files } { files := before.files, heap := base } := ⟨rfl, rfl⟩
  obtain ⟨agrees, after⟩ := ends_agree asks.invoked performed (Fails.settle _ _) quiet (resumed_along Quiet.patient _ _)
    ⟨f, carried⟩ named registry fit left.writable ended
  refine ⟨agrees, named, ?_, fun e' same halts => left.behind (after e' same halts)⟩
  rintro e' rfl
  have registered : w₁.Registers c.schema items := by
    rw [World.Registers, kept]
    exact registers
  have ran : Executor.resumeState audience (.str c.schema) (pure ⟨e.call.context, e.view.cursors⟩) input e.call.listener
      loopFuel w₁ = .ok e' w := by
    rw [← holds.named e rfl]
    exact called
  exact ⟨items, _, .continued reached registered ran, registers⟩

/-- What holds of the first command and of each one after it holds of all. -/
theorem Chain.holds {r : Except Fault Execution} {outcome : Outcome} (loaded : loadWorkflow c.workflow { files } = .ok () w₀)
    (writable : files.Writable c.path) (apart : ¬ files.Used c.path (files.placeOf (c.document files)))
    (chain : Chain c files w₀ r w outcome u) : Holds c files w₀ r w outcome u := by
  induction chain with
  | run asks made given portable called fit ended => exact .run loaded writable asks made given portable called fit ended
  | resume _ halted asks given portable called fit ended before =>
    exact .resume loaded apart before halted asks given portable called fit ended

end Workflow.Command
