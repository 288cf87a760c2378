import Workflow.Executor
import Workflow.Proofs.Chronicle
import Workflow.Proofs.Halts

/-! Calls of all kinds. Whichever way a call begins, it first finds its schema and its position there, and then it is one
traversal. -/

namespace Workflow
open Script (Act Value)
open Engine (Level)

/-- A call that a caller makes: the start of a schema, going on from a state that is read first, for an answer as well as
for a retry, or the continuation that a halted call offers. -/
inductive Request where
  | start (call : Call)
  | resume (schema : Value) (state : Job State) (listener : Option Nat)
  | goOn (e : Execution)

namespace Request

def perform (audience : Audience) (input : Value) (fuel : Nat) : Request → Job Execution
  | .start call => Executor.start audience call input fuel
  | .resume schema state listener => Executor.resumeState audience schema state input listener fuel
  | .goOn e => Executor.goOn audience e input fuel

def schema : Request → Value
  | .start call => call.schema
  | .resume schema _ _ => schema
  | .goOn e => e.call.schema

/-- The listener of the call alone. -/
def listener : Request → Option Nat
  | .start call => call.listener
  | .resume _ _ listener => listener
  | .goOn e => e.call.listener

def level : Request → Level
  | .start _ => .started
  | _ => .resumed

end Request

/-- Where a call begins in a schema. -/
structure Beginning where
  call : Call
  items : Schema
  position : List Int

namespace Executor

/-- What a call that goes on does before it runs anything. -/
def beginAt (call : Call) (items : Schema) (position : List Int) : Job Beginning := do
  let name ← Job.shown call.schema
  match items.checkPosition position with
  | .error .missing => Job.refuse (.noPosition name)
  | .error (.outOfRange depth) => Job.refuse (.outOfRange name (positionText position) depth)
  | .error (.notBlock depth) => Job.refuse (.notBlock name (positionText position) depth)
  | .error (.beforeStart _) => Job.act (Act.fail .index "list index out of range")
  | .ok () => do
    Job.log .info "stepflow.workflow.executor" s!"Resuming workflow '{name}' at position {positionText position}"
    return ⟨call, items, position⟩

end Executor

namespace Request

/-- What a call does before it runs anything. -/
def opening : Request → Job Beginning
  | .start call => do
    let found ← Executor.schema call.schema
    Job.log .info "stepflow.workflow.executor" s!"Starting workflow '{← Job.shown call.schema}'"
    return ⟨call, found.items, []⟩
  | .resume schema state listener => do
    let found ← Executor.schema schema
    let state ← state
    Executor.beginAt { schema, context := state.context, listener } found.items state.position
  | .goOn e => do
    let found ← Executor.schema e.call.schema
    Executor.beginAt e.call found.items e.view.cursors

end Request

theorem Executor.resumeAt_eq_beginAt (audience : Audience) (call : Call) (items : Schema) (position : List Int)
    (input : Value) (fuel : Nat) :
    resumeAt audience call items position input fuel =
      beginAt call items position >>= fun b => run audience b.call .resumed b.items b.position input fuel := by
  simp only [resumeAt, beginAt, bind_assoc]
  refine congrArg _ (funext fun name => ?_)
  cases items.checkPosition position with
  | ok => rfl
  | error fault => cases fault <;> rfl

/-- A call is what it does first, and then a traversal. -/
theorem Request.perform_eq (audience : Audience) (input : Value) (fuel : Nat) (r : Request) :
    r.perform audience input fuel =
      r.opening >>= fun b => Executor.run audience b.call r.level b.items b.position input fuel := by
  cases r with
  | start call => simp only [perform, opening, Executor.start, level, bind_assoc, pure_bind]
  | resume schema state listener =>
    simp only [perform, opening, Executor.resumeState, Executor.resumeAt_eq_beginAt, level, bind_assoc]
  | goOn e => simp only [perform, opening, Executor.goOn, Executor.resumeAt_eq_beginAt, level, bind_assoc]

/-- A position that a call of some kind can begin at: the start of the schema, or one that passes the check. -/
def Schema.Passes (items : Schema) (position : List Int) : Prop := position = [] ∨ items.checkPosition position = .ok ()

namespace Executor
variable {w w' : World}

theorem schema_found {id : Value} {found : RegisteredSchema} (ran : schema id w = .ok found w') :
    ∃ s ∈ w.registry.schemas, s = found := by
  obtain ⟨_, w₁, checked, ran⟩ := Engine.Work.bind_ok ran
  obtain ⟨_, w₂, got, ran⟩ := Engine.Work.bind_ok ran
  cases got
  have same : w₁.registry = w.registry := by
    unfold Job.act at checked
    split at checked
    · cases checked
      rfl
    · cases checked
  cases known : w₁.registry.schema? id with
  | none =>
    rw [known] at ran
    cases ran
  | some s =>
    rw [known] at ran
    cases ran
    rw [same] at known
    exact ⟨found, List.mem_of_find?_eq_some known, rfl⟩

theorem beginAt_ok {call : Call} {items : Schema} {position : List Int} {b : Beginning}
    (ran : beginAt call items position w = .ok b w') : b = ⟨call, items, position⟩ ∧ items.checkPosition position = .ok () := by
  obtain ⟨name, w₁, -, ran⟩ := Engine.Work.bind_ok ran
  cases checked : items.checkPosition position with
  | ok =>
    simp only [checked] at ran
    obtain ⟨_, w₂, -, ran⟩ := Engine.Work.bind_ok ran
    cases ran
    exact ⟨rfl, rfl⟩
  | error fault =>
    simp only [checked] at ran
    cases fault <;> cases ran

end Executor

namespace Request
variable {audience : Audience} {r : Request} {input : Value} {fuel : Nat} {w w' : World}

/-- A call begins in the schema that it names, at a position that the schema admits. -/
theorem opening_begins {b : Beginning} {w₁ : World} (begun : r.opening w = .ok b w₁) :
    (∃ found w₂, Executor.schema r.schema w = .ok found w₂ ∧ b.items = found.items) ∧ b.call.listener = r.listener ∧
      Schema.Passes b.items b.position := by
  cases r with
  | start call =>
    obtain ⟨found, _, known, begun⟩ := Engine.Work.bind_ok begun
    obtain ⟨name, _, -, begun⟩ := Engine.Work.bind_ok begun
    obtain ⟨_, _, -, begun⟩ := Engine.Work.bind_ok begun
    cases begun
    exact ⟨⟨found, _, known, rfl⟩, rfl, .inl rfl⟩
  | resume schema state listener =>
    obtain ⟨found, _, known, begun⟩ := Engine.Work.bind_ok begun
    obtain ⟨s, _, -, begun⟩ := Engine.Work.bind_ok begun
    obtain ⟨rfl, passes⟩ := Executor.beginAt_ok begun
    exact ⟨⟨found, _, known, rfl⟩, rfl, .inr passes⟩
  | goOn e =>
    obtain ⟨found, _, known, begun⟩ := Engine.Work.bind_ok begun
    obtain ⟨rfl, passes⟩ := Executor.beginAt_ok begun
    exact ⟨⟨found, _, known, rfl⟩, rfl, .inr passes⟩

theorem opening_ok {b : Beginning} {w₁ : World} (begun : r.opening w = .ok b w₁) :
    (∃ s ∈ w.registry.schemas, b.items = s.items) ∧ Schema.Passes b.items b.position := by
  obtain ⟨⟨found, _, known, items⟩, -, passes⟩ := opening_begins begun
  obtain ⟨s, member, rfl⟩ := Executor.schema_found known
  exact ⟨⟨s, member, items⟩, passes⟩

/-- What a call does and tells of. One that is refused at once does nothing. -/
def moments (audience : Audience) (input : Value) (fuel : Nat) (r : Request) (w : World) : List (Engine.Moment World) :=
  match r.opening w with
  | .ok b w₁ => Engine.moments (b.call.host audience) fuel r.level b.items b.position input w₁
  | .error _ _ => []

/-- Every deed of a call was done by its host. -/
theorem done {b : Beginning} {w₁ : World} (begun : r.opening w = .ok b w₁) :
    ∀ d ∈ Engine.deedsOf (r.moments audience input fuel w), d.Done (b.call.host audience) := by
  intro d member
  rw [moments, begun] at member
  obtain ⟨_, _, -, -, -, each⟩ := Engine.run_observed (b.call.host audience) fuel r.level b.items b.position input w₁
  obtain ⟨m, among, same⟩ := List.mem_filterMap.mp member
  cases m with
  | done d' =>
    obtain rfl : d' = d := Option.some.inj same
    exact each (.done d') among
  | told => cases same
  | missed => cases same

/-- A call that returns has made a traversal. -/
theorem returned {e : Execution} (ran : r.perform audience input fuel w = .ok e w') :
    ∃ b w₁, r.opening w = .ok b w₁ ∧ e.call = b.call ∧
      Engine.run (b.call.host audience) fuel r.level b.items b.position input w₁ = .ok e.report w' := by
  rw [perform_eq] at ran
  obtain ⟨b, w₁, begun, ran⟩ := Engine.Work.bind_ok ran
  obtain ⟨report, w₂, ran, same⟩ := Engine.Work.bind_ok ran
  cases same
  exact ⟨b, w₁, begun, rfl, ran⟩

/-- A call that fails was refused at once, or its traversal failed. -/
theorem failed {fault : Fault} (ran : r.perform audience input fuel w = .error fault w') :
    r.opening w = .error fault w' ∨ ∃ b w₁, r.opening w = .ok b w₁ ∧
      Engine.run (b.call.host audience) fuel r.level b.items b.position input w₁ = .error fault w' := by
  rw [perform_eq] at ran
  obtain begun | ⟨b, w₁, begun, ran⟩ := Engine.Work.bind_error ran
  · exact .inl begun
  · obtain ran | ⟨report, w₂, -, impossible⟩ := Engine.Work.bind_error ran
    · exact .inr ⟨b, w₁, begun, ran⟩
    · cases impossible

end Request

end Workflow
