import Workflow.Proofs.Blindness

/-! What a call does does not depend on who listens. A job is deaf if in two worlds that differ in nothing but their
listeners and their journals it comes to the same, and leaves the worlds as near to each other as they were. -/

namespace Workflow
open Script (Value)
open Engine (Agree)

/-- Two worlds are the same but for who is attached and for what was logged and heard. -/
structure World.Alike (v w : World) : Prop where
  heap : v.heap = w.heap
  evaluator : v.evaluator = w.evaluator
  registry : v.registry = w.registry
  files : v.files = w.files
  problems : v.problems = w.problems

/-- Two worlds are alike, and some listeners are attached in one of them and some in the other. -/
structure World.Apart (ls ms : List Nat) (v w : World) : Prop extends v.Alike w where
  left : v.listeners = ls
  right : w.listeners = ms

theorem World.Apart.compile (ls ms : List Nat) (source : String) :
    Agree (World.Apart ls ms) (Job.compile source) (Job.compile source) := by
  refine .bind (fun v w apart => ?_) (fun _ => .pure _)
  simp only [Job.compiled, Bind.bind, EStateM.bind, Script.get_result, ← apart.evaluator]
  cases made : v.evaluator.compile source with
  | error fault => cases fault <;> exact ⟨.error _, v, w, rfl, rfl, apart⟩
  | ok found =>
    dsimp only
    split <;> exact ⟨.ok found.compiled, _, _, rfl, rfl, { apart with evaluator := rfl }⟩

/-- Who is attached is out of sight. -/
theorem World.Apart.hides (ls ms : List Nat) : Hides (World.Apart ls ms) where
  heap apart := apart.heap
  schemas apart := congrArg Registry.schemas apart.registry
  builtins apart := congrArg Script.Evaluator.builtins apart.evaluator
  kept apart _ := { apart with heap := rfl }
  logged apart _ := { apart with }
  compile := compile ls ms

/-- A job neither asks who listens nor reads the journal. -/
def Job.Deaf (job : Job α) : Prop := ∀ ls ms, Agree (World.Apart ls ms) job job

theorem Job.Deaf.check (call : Call) (c : Condition) : Deaf (call.check c) :=
  fun ls ms => (World.Apart.hides ls ms).check call c

theorem Job.Deaf.invoke (call : Call) (id : String) (literal supplied : Value) (place : List Int) :
    Deaf (call.invoke id literal supplied place) := by
  intro ls ms v w apart
  apply (World.Apart.hides ls ms).invoke call literal supplied place apart
  rw [apart.registry]
  cases w.registry.step? id with
  | none => exact .none
  | some s => exact .some (fun input v' w' _ _ apart' => (World.Apart.hides ls ms).react s call.context input v' w' apart')

end Workflow
