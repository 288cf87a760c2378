import Workflow.Proofs.Resolution

/-! What a call looks at in its world: the values, what sources compile to, and the schemas. In two worlds that do not differ
in these, the jobs of a call come to the same. -/

namespace Workflow
open Script (Act Entries Value)
open Engine (Agree Event Outcome View answered answered_error answered_ok)

/-- A relation of worlds whose differences are out of sight of the jobs of a call. -/
structure Hides (R : World → World → Prop) : Prop where
  heap {v w : World} : R v w → v.heap = w.heap
  schemas {v w : World} : R v w → v.registry.schemas = w.registry.schemas
  builtins {v w : World} : R v w → v.evaluator.builtins = w.evaluator.builtins
  kept {v w : World} : R v w → ∀ h, R { v with heap := h } { w with heap := h }
  logged {v w : World} : R v w → ∀ entry, R { v with journal := v.journal.push entry } { w with journal := w.journal.push entry }
  compile (source : String) : Agree R (Job.compile source) (Job.compile source)

/-- What a step that is invoked comes to, on an input that was merged before. -/
def Step.react (s : Step) (context input : Value) : Job Outcome := do
  match ← Job.orRetriable (s.handle context input) with
  | .ok value => Job.outcomeOf value
  | .error failure => return .failed (← Job.haltOfFailure failure)

theorem Executor.step_known {id : String} {s : Step} {w : World} (known : w.registry.step? id = some s) :
    step id w = .ok s w := by
  simp only [step, Bind.bind, EStateM.bind, Script.get_result, known]
  rfl

theorem Executor.step_unknown {id : String} {w : World} (unknown : w.registry.step? id = none) :
    step id w = .error (.unknownStep id none) w := by
  simp only [step, Bind.bind, EStateM.bind, Script.get_result, unknown]
  rfl

namespace Hides
variable {R : World → World → Prop}

theorem get {k l : World → Job α} (same : ∀ v w, R v w → Agree R (k v) (l w)) :
    Agree R (MonadState.get >>= k) (MonadState.get >>= l) :=
  fun v w related => same v w related v w related

variable (hides : Hides R)
include hides

theorem isReport {v w : World} (related : R v w) (x : Value) : Step.isReport v x = Step.isReport w x := by
  simp only [Step.isReport, hides.heap related]

theorem isRetriable {v w : World} (related : R v w) (x : Value) : Job.isRetriable v x = Job.isRetriable w x := by
  simp only [Job.isRetriable, hides.heap related]

theorem act (a : Act α) : Agree R (Job.act a) (Job.act a) := by
  intro v w related
  cases ran : a v.heap with
  | ok x h =>
    refine ⟨.ok x, { v with heap := h }, { w with heap := h }, ?_, ?_, hides.kept related h⟩
    · simp only [Job.act, ran, answered_ok]
    · simp only [Job.act, ← hides.heap related, ran, answered_ok]
  | error stop h =>
    refine ⟨.error (.stopped stop), { v with heap := h }, { w with heap := h }, ?_, ?_, hides.kept related h⟩
    · simp only [Job.act, ran, answered_error]
    · simp only [Job.act, ← hides.heap related, ran, answered_error]

theorem shown (v : Value) : Agree R (Job.shown v) (Job.shown v) := hides.act _

theorem log (level : LogLevel) (logger message : String) :
    Agree R (Job.log level logger message) (Job.log level logger message) :=
  fun _ _ related => ⟨.ok (), _, _, rfl, rfl, hides.logged related _⟩

theorem orRetriable {job other : Job α} {v w v' w' : World} {answer : Except Fault α} (left : job v = answered answer v')
    (right : other w = answered answer w') (related : R v' w') :
    ∃ caught, Job.orRetriable job v = answered caught v' ∧ Job.orRetriable other w = answered caught w' := by
  simp only [Job.orRetriable, left, right]
  cases answer with
  | ok a => exact ⟨.ok (.ok a), rfl, rfl⟩
  | error fault =>
    cases fault with
    | stopped stop =>
      cases stop with
      | exhausted => exact ⟨.error _, rfl, rfl⟩
      | raised error =>
        simp only [answered_error, hides.isRetriable related]
        split
        · exact ⟨.ok (.error error), rfl, rfl⟩
        · exact ⟨.error _, rfl, rfl⟩
    | _ => exact ⟨.error _, rfl, rfl⟩

theorem evaluate (program : Script.Program) (bindings : Entries) :
    Agree R (Job.evaluate program bindings) (Job.evaluate program bindings) := by
  refine get (fun v w related => ?_)
  rw [hides.builtins related]
  exact hides.act _

/-! Conditions and steps. -/

theorem optionalField (v : Value) (name : String) : Agree R (Job.optionalField v name) (Job.optionalField v name) := by
  refine get (fun u w related => ?_)
  rw [hides.heap related]
  split <;> exact .pure _

theorem haltOfInput (v : Value) : Agree R (Job.haltOfInput v) (Job.haltOfInput v) :=
  (hides.act _).bind (fun _ => (hides.optionalField v _).bind (fun _ => (hides.optionalField v _).bind (fun _ => .pure _)))

theorem haltOfFailure (v : Value) : Agree R (Job.haltOfFailure v) (Job.haltOfFailure v) :=
  (hides.act _).bind (fun _ => (hides.act _).bind (fun _ => (hides.act _).bind (fun _ => (hides.act _).bind (fun _ => .pure _))))

theorem outcomeOf (report : Value) : Agree R (Job.outcomeOf report) (Job.outcomeOf report) := by
  refine get (fun v w related => ?_)
  rw [hides.heap related]
  split
  · exact (hides.haltOfInput _).bind (fun _ => .pure _)
  · exact (hides.haltOfFailure _).bind (fun _ => .pure _)
  · exact .pure _

theorem handle (s : Step) (context input : Value) : Agree R (s.handle context input) (s.handle context input) := by
  unfold Step.handle
  split
  · exact (hides.log _ _ _).bind (fun _ => hides.act _)
  · have report (x : Value) : Agree R
        (do
          let x ← Job.act (Script.awaited x)
          return if Step.isReport (← MonadState.get) x then x else .nothing)
        (do
          let x ← Job.act (Script.awaited x)
          return if Step.isReport (← MonadState.get) x then x else .nothing) := by
      refine (hides.act _).bind (fun x => get (fun v w related => ?_))
      rw [hides.isReport related]
      exact .pure _
    split
    · exact (hides.compile _).bind (fun _ => (hides.evaluate _ _).bind report)
    · exact (hides.act _).bind report

theorem decide (call : Call) (c : Condition) : Agree R (call.decide c) (call.decide c) := by
  have answer (x : Value) : Agree R
      (do
        let x ← Job.act (Script.awaited x)
        Job.act (Act.truth x))
      (do
        let x ← Job.act (Script.awaited x)
        Job.act (Act.truth x)) := (hides.act _).bind (fun _ => hides.act _)
  cases c with
  | source text => exact (hides.compile _).bind (fun _ => (hides.act _).bind (fun _ => (hides.evaluate _ _).bind answer))
  | call f => exact (hides.act _).bind answer

theorem check (call : Call) (c : Condition) : Agree R (call.check c) (call.check c) := by
  refine .bind (fun v w related => ?_) (fun r => ?_)
  · obtain ⟨answer, v', w', left, right, related'⟩ := hides.decide call c v w related
    obtain ⟨caught, left, right⟩ := hides.orRetriable left right related'
    exact ⟨caught, v', w', left, right, related'⟩
  cases r with
  | ok passed => exact .pure _
  | error failure => exact (hides.haltOfFailure _).bind (fun _ => .pure _)

/-- Steps of which the handlers come to the same react alike. -/
theorem react_of {s t : Step} {context input : Value} {v w v' w' : World} {answer : Except Fault Value}
    (left : s.handle context input v = answered answer v') (right : t.handle context input w = answered answer w')
    (related : R v' w') : ∃ a v₂ w₂, s.react context input v = answered a v₂ ∧ t.react context input w = answered a w₂ ∧
      R v₂ w₂ := by
  obtain ⟨caught, left, right⟩ := hides.orRetriable left right related
  cases caught with
  | error fault =>
    exact ⟨.error fault, v', w', Engine.Work.error_bind left, Engine.Work.error_bind right, related⟩
  | ok r =>
    rw [Step.react, Step.react, Engine.Work.ok_bind left, Engine.Work.ok_bind right]
    cases r with
    | ok report => exact hides.outcomeOf _ _ _ related
    | error failure => exact (hides.haltOfFailure _).bind (fun _ => .pure _) _ _ related

theorem react (s : Step) (context input : Value) : Agree R (s.react context input) (s.react context input) := by
  intro v w related
  obtain ⟨answer, v', w', left, right, related'⟩ := hides.handle s context input v w related
  exact hides.react_of left right related'

/-- A step need not be the same in both worlds, if what is found there reacts alike to the input that it gets. -/
theorem invoke (call : Call) {id : String} (literal supplied : Value) (place : List Int) {v w : World} (related : R v w)
    (known : Option.Rel (fun s t => ∀ input v' w', mergeInput literal supplied v.heap = .ok input v'.heap →
        v'.evaluator = v.evaluator → R v' w' → ∃ a v₂ w₂, s.react call.context input v' = answered a v₂ ∧
          t.react call.context input w' = answered a w₂ ∧ R v₂ w₂)
      (v.registry.step? id) (w.registry.step? id)) :
    ∃ a v' w', call.invoke id literal supplied place v = answered a v' ∧
      call.invoke id literal supplied place w = answered a w' ∧ R v' w' := by
  generalize first : v.registry.step? id = a at known
  generalize second : w.registry.step? id = b at known
  cases known with
  | none =>
    exact ⟨.error (.unknownStep id none), v, w, Engine.Work.error_bind (Executor.step_unknown first),
      Engine.Work.error_bind (Executor.step_unknown second), related⟩
  | @some s t alike =>
    rw [Call.invoke, Engine.Work.ok_bind (Executor.step_known first), Engine.Work.ok_bind (Executor.step_known second)]
    cases merged : mergeInput literal supplied v.heap with
    | error stop h =>
      have left : Job.act (mergeInput literal supplied) v = .error (.stopped stop) { v with heap := h } := by
        simp only [Job.act, merged]
      have right : Job.act (mergeInput literal supplied) w = .error (.stopped stop) { w with heap := h } := by
        simp only [Job.act, ← hides.heap related, merged]
      exact ⟨.error (.stopped stop), _, _, Engine.Work.error_bind left, Engine.Work.error_bind right, hides.kept related h⟩
    | ok input h =>
      have left : Job.act (mergeInput literal supplied) v = .ok input { v with heap := h } := by
        simp only [Job.act, merged]
      have right : Job.act (mergeInput literal supplied) w = .ok input { w with heap := h } := by
        simp only [Job.act, ← hides.heap related, merged]
      rw [Engine.Work.ok_bind left, Engine.Work.ok_bind right]
      exact alike input _ _ merged rfl (hides.logged (hides.kept related h) _)

/-! Events, up to their delivery. -/

theorem logEnd (call : Call) (event : Event) (v : View) : Agree R (call.logEnd event v) (call.logEnd event v) := by
  unfold Call.logEnd
  dsimp only
  split
  · exact .pure _
  · refine (hides.shown _).bind (fun _ => ?_)
    split
    · exact (hides.shown _).bind (fun _ => hides.log _ _ _)
    · exact hides.log _ _ _
  · exact .pure _
  · exact (hides.shown _).bind (fun _ => hides.log _ _ _)
  · exact .pure _

/-! The opening of a call. -/

theorem schema (id : Value) : Agree R (Executor.schema id) (Executor.schema id) := by
  refine (hides.act _).bind (fun _ => get (fun v w related => ?_))
  rw [Registry.schema?, Registry.schema?, hides.schemas related]
  split
  · exact .pure _
  · exact .throw _

theorem ofData (data : Value) : Agree R (State.ofData data) (State.ofData data) := by
  refine get (fun v w related => ?_)
  rw [hides.heap related]
  dsimp only
  split
  · exact .throw _
  · split
    · exact .pure _
    · split
      · exact .pure _
      · exact (hides.act _).bind (fun _ => .throw _)

theorem cursorsOf (items : List Value) : Agree R (State.cursorsOf items) (State.cursorsOf items) := by
  induction items with
  | nil => exact .pure _
  | cons v rest ih =>
    unfold State.cursorsOf
    split
    · exact ih.bind (fun _ => .pure _)
    · exact hides.act _

theorem ofValue (v : Value) : Agree R (State.ofValue v) (State.ofValue v) := by
  unfold State.ofValue
  split
  · refine get (fun u w related => ?_)
    rw [hides.heap related]
    split
    · exact (hides.act _).bind (fun items => (hides.cursorsOf _).bind (fun _ => .pure _))
    · exact hides.ofData _
  · exact hides.ofData _

theorem beginAt (call : Call) (items : Schema) (position : List Int) :
    Agree R (Executor.beginAt call items position) (Executor.beginAt call items position) := by
  refine (hides.shown _).bind (fun name => ?_)
  split
  · exact .throw _
  · exact .throw _
  · exact .throw _
  · exact hides.act _
  · exact (hides.log _ _ _).bind (fun _ => .pure _)

theorem opening {r : Request} (reads : r.Reads) : Agree R r.opening r.opening := by
  cases r with
  | start call =>
    exact (hides.schema _).bind (fun _ => (hides.shown _).bind (fun _ => (hides.log _ _ _).bind (fun _ => .pure _)))
  | resume schema state listener =>
    have read : Agree R state state := by
      obtain ⟨v, rfl⟩ | ⟨s, rfl⟩ := reads
      · exact hides.ofValue v
      · exact .pure s
    exact (hides.schema _).bind (fun _ => read.bind (fun _ => hides.beginAt _ _ _))
  | goOn e => exact (hides.schema _).bind (fun _ => hides.beginAt _ _ _)

end Hides

end Workflow
