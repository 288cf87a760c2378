import Workflow.Proofs.Grafting
import Workflow.Proofs.Rebuilding
import Workflow.Proofs.Reloading

/-! Calls of commands. A command loads its document anew and reads the state of its call from a file. Its call comes to the
same as one that goes on in the process that has loaded the document before, at other addresses. -/

namespace Workflow
open Script (Addr Entries Heap Renaming Value)
open Engine (Work)

theorem Script.Evaluator.Sound.new : ({} : Script.Evaluator).Sound where
  builtins := rfl
  honest source compiled found := by cases found

theorem Command.audience_adds : Command.audience.Heeds World.Adds := World.Adds.tolerant.logging (fun _ _ grows => grows)

/-- The world of a process that has loaded its document: it knows the same steps and schemas, and handles no error. -/
structure World.Later (w₀ w : World) : Prop where
  registry : w.registry = w₀.registry
  sound : w.evaluator.Sound
  idle : w.heap.handling = []

/-- The context of a call is a tree of data apart from all that is registered, which is as it was. -/
structure Execution.Apart (w₀ : World) (e : Execution) (j : Json) (w : World) : Prop where
  tree : ∃ as, w.heap.Tree e.call.context j as ∧ ∀ a ∈ as, ¬ w₀.Holds a
  spares : Spares w₀.Holds w₀ w

namespace Command
variable {i : Invocation} {files : FileTree} {w₀ : World}

/-- A document that is loaded behind a state gives the same as where it was loaded first. -/
theorem loadWorkflow_behind {file : String} {base : Heap} {others : FileTree} (idle : base.handling = [])
    (same : others.read ((FilePath.ofText file).resolve others.home) = files.read ((FilePath.ofText file).resolve files.home))
    (loaded : loadWorkflow file { files } = .ok () w₀) :
    ∃ f w, loadWorkflow file { files := others, heap := base } = .ok () w ∧ World.Behind {} base f w₀ w := by
  have start : World.Behind {} base .none { files } { files := others, heap := base } :=
    ⟨⟨.none rfl idle, fun a there => there.elim, .refl _, .refl _⟩, ⟨.nil, .nil⟩, ⟨.new, .new⟩, Iff.rfl⟩
  obtain ⟨f, w, -, loaded', behind⟩ := loadWorkflow_again start same loaded
  exact ⟨f, w, loaded', behind⟩

theorem listen_ok (i : Invocation) (w : World) : ∃ w', listen i w = .ok () w' ∧ w'.files = w.files ∧ w'.heap = w.heap ∧
    ∀ f v, World.Renamed f v w → World.Renamed f v w' := by
  unfold listen
  cases i.isDebugging with
  | true => exact ⟨_, rfl, rfl, rfl, fun f v renamed => ⟨renamed.heap, renamed.registry, renamed.evaluators⟩⟩
  | false => exact ⟨w, rfl, rfl, rfl, fun f v renamed => renamed⟩

/-- The call of a new run comes to the same as the one that starts in the process. -/
theorem started_carried {schema : String} {assignments : List String} {file : Option String} {w₁ w₂ : World}
    {context input : Value}
    (loaded : loadWorkflow i.workflow { files } = .ok () w₀) (made : contextOf file assignments w₀ = .ok context w₁)
    (given : inputOf i.input w₁ = .ok input w₂)
    (portable : ∀ d ∈ Engine.deedsOf ((Request.start { schema := .str schema, context }).moments audience input loopFuel w₂),
      d.Portable { schema := .str schema, context }) :
    ∃ f, Carried World.Renamed Fault.Sent f Execution.Sent
      (Executor.start audience { schema := .str schema, context } input loopFuel w₂)
        (started i schema assignments file { files }) := by
  obtain ⟨f, w, loaded', behind⟩ := loadWorkflow_behind (show ({} : Heap).handling = [] from rfl) rfl loaded
  cases loaded.symm.trans loaded'
  obtain ⟨u, listening, same, -, worlds⟩ := listen_ok i w₀
  have renamed := worlds f w₀ ⟨behind.heap.renamed, behind.registry, behind.evaluators⟩
  have contexts := contextOf_carried file assignments renamed same
  rw [made] at contexts
  have begun : started i schema assignments file { files } = (contextOf file assignments >>= fun context =>
      inputOf i.input >>= fun input => Executor.start audience { schema := .str schema, context } input) u :=
    (Work.ok_bind loaded).trans (Work.ok_bind listening)
  rw [begun]
  generalize there : contextOf file assignments u = found at contexts
  cases contexts with
  | @ok g _ context' _ u₁ within sends renamed =>
    rw [Work.ok_bind there]
    have inputs := inputOf_matches i.input g w₁ u₁ renamed
    rw [given] at inputs
    generalize there : inputOf i.input u₁ = found at inputs
    cases inputs with
    | @ok k _ input' _ u₂ more same renamed =>
      rw [Work.ok_bind there]
      have call : Call.Sent k { schema := .str schema, context } { schema := .str schema, context := context' } :=
        ⟨⟨schema, rfl, rfl⟩, sends.mono more⟩
      exact ⟨k, Request.start_carried audience_adds call same loopFuel renamed portable⟩

/-- The world of a halted call corresponds to one in which its document is loaded behind its state, with the context of the
state in the place of its own. -/
theorem carried_apart {e : Execution} {jc : Json} {w u : World} {context : Value} {base : Heap} {f : Renaming}
    (apart : e.Apart w₀ jc w) (later : World.Later w₀ w) (behind : World.Behind {} base f w₀ u)
    (restored : ∃ bs, base.Tree context jc bs ∧ ∀ b ∈ bs, b < base.objects.size) :
    ∃ g, World.Renamed g w u ∧ g.Sends e.call.context context := by
  obtain ⟨as, tree, outside⟩ := apart.tree
  obtain ⟨bs, tree', inside⟩ := restored
  have registered : World.Renamed (f.only w₀.Holds) w u :=
    World.Renamed.spared ⟨behind.heap.renamed, behind.registry, behind.evaluators⟩ later.registry apart.spares later.sound
      later.idle
  have kept : u.heap.Tree context jc bs := tree'.congr (fun a _ o found => behind.heap.kept a o found)
  have outside : Script.Outside (f.only w₀.Holds) as bs := by
    refine ⟨fun a member there => outside a member there.2, fun b member c there same => ?_⟩
    exact Nat.not_lt.mpr (behind.heap.apart c there.1) (same ▸ inside b member)
  obtain ⟨g, grafted, sends⟩ := tree.graft kept outside registered.heap
  exact ⟨g, ⟨grafted.renamed, registered.registry.mono grafted.within, registered.evaluators⟩, sends⟩

/-- The call that goes on from a state comes to the same as the one that goes on in the process. -/
theorem resumed_carried {id : String} {e : Execution} {jc : Json} {w w₁ : World} {input : Value} {entries : Entries}
    {context : Value} {base : Heap} {others : FileTree} (idle : base.handling = [])
    (same : others.read ((FilePath.ofText i.workflow).resolve others.home) =
      files.read ((FilePath.ofText i.workflow).resolve files.home))
    (loaded : loadWorkflow i.workflow { files } = .ok () w₀) (later : World.Later w₀ w) (apart : e.Apart w₀ jc w)
    (named : e.call.schema = .str id) (positive : ∀ n ∈ e.view.cursors, 0 ≤ n)
    (restored : Restored id e.report.stepId jc e.view.cursors entries context base) (given : inputOf i.input w = .ok input w₁)
    (portable : ∀ d ∈ Engine.deedsOf ((Request.goOn e).moments audience input loopFuel w₁), d.Portable e.call) :
    ∃ f, Carried World.Renamed Fault.Sent f Execution.Sent (Executor.goOn audience e input loopFuel w₁)
      (resumed i entries { files := others, heap := base }) := by
  obtain ⟨f, u, loaded', behind⟩ := loadWorkflow_behind idle same loaded
  obtain ⟨u₁, listening, -, heap, worlds⟩ := listen_ok i u
  obtain ⟨g, renamed, sends⟩ := carried_apart apart later behind restored.tree
  obtain ⟨s, l, state, stated, listed⟩ := restored.state
  have kept {a : Addr} {o : Script.Object} (found : base.objects[a]? = some o) : u₁.heap.objects[a]? = some o := by
    rw [heap]
    exact behind.heap.kept a o found
  have begun : resumed i entries { files := others, heap := base } = (inputOf i.input >>= fun input => do
      let verb := if (Entries.named? entries "error").isSome then "Retrying" else "Resuming"
      Job.log .info resumeLogger s!"{verb} step '{e.report.stepId}' of '{id}'"
      Executor.resumeState audience (.str id) (pure ⟨context, e.view.cursors⟩) input none) u₁ := by
    refine (Work.ok_bind loaded').trans ((Work.ok_bind listening).trans ?_)
    rw [restored.schema, restored.step, state]
    exact Work.ok_bind (State.ofData_held positive (kept stated) (kept listed))
  rw [begun]
  have inputs := inputOf_matches i.input g w u₁ (worlds g w renamed)
  rw [given] at inputs
  generalize there : inputOf i.input u₁ = answer at inputs
  cases inputs with
  | @ok k _ input' _ u₂ more given' renamed =>
    rw [Work.ok_bind there]
    have noted (message : String) := renamed.right ((World.Adds.tolerant.log .info resumeLogger message).ok rfl)
    exact ⟨k, Request.goOn_carried audience_adds named (sends.mono more) none given' loopFuel (noted _) portable⟩

end Command

end Workflow
