import Workflow.Proofs.Inputs
import Workflow.Proofs.Registrations
import Workflow.Proofs.Telling

/-! What a call of a registered schema refers to is there. Whatever a call fails with, it is not a step that is unknown and
not a condition that does not compile. -/

namespace Workflow
open Script (Act Value)
open Engine (Deed Event Moment Outcome View Work deedsOf)

namespace Engine
variable {σ : Type} {S : σ → σ → Prop} {host : Host σ}

/-- The world in which a moment begins. -/
def Moment.before : Moment σ → σ
  | .done d => d.before
  | .told _ _ w _ => w
  | .missed _ _ w _ _ => w

/-- What was observed up to some world, of which every moment began in a world that a relation led to. -/
def Comes (S : σ → σ → Prop) (first : σ) (v : σ × List (Moment σ)) (w : σ) : Prop :=
  v.1 = w ∧ S first w ∧ ∀ m ∈ v.2, S first m.before

theorem Comes.more {first w w' : σ} {log : List (Moment σ)} {m : Moment σ} (lasting : Lasting S)
    (comes : Comes S first (w, log) w) (before : m.before = w) (goes : S w w') : Comes S first (w', log ++ [m]) w' := by
  obtain ⟨-, here, each⟩ := comes
  refine ⟨rfl, lasting.trans here goes, ?_⟩
  intro n member
  cases List.mem_append.mp member with
  | inl earlier => exact each n earlier
  | inr last =>
    rw [List.mem_singleton.mp last, before]
    exact here

end Engine

/-! What jobs fail with. -/

/-- A fault that a script or the language of scripts raised. -/
def Fault.IsStop : Fault → Prop
  | .stopped _ => True
  | _ => False

/-- A fault that has nothing to do with how steps and conditions were set up. -/
def Fault.IsElsewhere : Fault → Prop
  | .unknownStep _ _ => False
  | .refusedSource _ _ => False
  | .misplaced => False
  | _ => True

theorem Fault.IsStop.elsewhere {fault : Fault} (stop : fault.IsStop) : fault.IsElsewhere := by
  cases fault with
  | stopped => trivial
  | _ => cases stop

/-- A fault that is not a step that is missing. -/
def Fault.IsKnown : Fault → Prop
  | .unknownStep _ _ => False
  | _ => True

theorem Fault.IsElsewhere.known {fault : Fault} (elsewhere : fault.IsElsewhere) : fault.IsKnown := by
  cases fault with
  | unknownStep => exact elsewhere
  | _ => trivial

/-- Some work fails with certain faults only. -/
def FailsOnly (P : Fault → Prop) (x : Job α) : Prop := ∀ w fault w', x w = .error fault w' → P fault

namespace FailsOnly
variable {P Q : Fault → Prop}

theorem pure (a : α) : FailsOnly P (Pure.pure a : Job α) := by
  intro w fault w' failed
  cases failed

theorem get : FailsOnly P (MonadState.get : Job World) := by
  intro w fault w' failed
  cases failed

theorem bind {x : Job α} {k : α → Job β} (first : FailsOnly P x) (rest : ∀ a, FailsOnly P (k a)) : FailsOnly P (x >>= k) := by
  intro w fault w' failed
  obtain failed | ⟨a, w₁, -, failed⟩ := Work.bind_error failed
  · exact first w fault w' failed
  · exact rest a w₁ fault w' failed

theorem mono {x : Job α} (fails : FailsOnly P x) (implies : ∀ fault, P fault → Q fault) : FailsOnly Q x :=
  fun w fault w' failed => implies fault (fails w fault w' failed)

theorem elsewhere {x : Job α} (fails : FailsOnly Fault.IsStop x) : FailsOnly Fault.IsElsewhere x :=
  fails.mono (fun _ => Fault.IsStop.elsewhere)

theorem known {x : Job α} (fails : FailsOnly Fault.IsStop x) : FailsOnly Fault.IsKnown x :=
  fails.mono (fun _ stop => stop.elsewhere.known)

theorem fail {fault : Fault} (now : P fault) : FailsOnly P (Job.fail fault : Job α) := by
  rintro w _ w' ⟨⟩
  exact now

theorem log (level : LogLevel) (logger message : String) : FailsOnly P (Job.log level logger message) := by
  intro w fault w' failed
  cases failed

theorem act (a : Act α) : FailsOnly Fault.IsStop (Job.act a) := by
  intro w fault w' failed
  unfold Job.act at failed
  split at failed
  · cases failed
  · cases failed
    trivial

theorem refuse {cause : Invalid} (now : P (.invalid cause)) : FailsOnly P (Job.refuse cause : Job α) := by
  rintro w _ w' ⟨⟩
  exact now

theorem compile (source : String) : FailsOnly Fault.IsKnown (Job.compile source) := by
  intro w fault w' failed
  cases made : w.evaluator.compile source with
  | ok found =>
    obtain ⟨w₁, same⟩ := Job.compile_found made
    cases same.symm.trans failed
  | error refusal =>
    unfold Job.compile Job.compiled at failed
    simp only [Bind.bind, EStateM.bind, Script.get_result, made] at failed
    cases refusal <;> cases failed <;> trivial

theorem evaluate (program : Script.Program) (bindings : Script.Entries) :
    FailsOnly Fault.IsStop (Job.evaluate program bindings) := get.bind (fun _ => act _)

theorem haltOfFailure (v : Value) : FailsOnly Fault.IsStop (Job.haltOfFailure v) :=
  (act _).bind (fun _ => (act _).bind (fun _ => (act _).bind (fun _ => (act _).bind (fun _ => pure _))))

theorem optionalField (v : Value) (name : String) : FailsOnly Fault.IsStop (Job.optionalField v name) := by
  refine get.bind (fun w => ?_)
  split
  · exact pure _
  · exact pure _

theorem outcomeOf (report : Value) : FailsOnly Fault.IsStop (Job.outcomeOf report) := by
  refine get.bind (fun w => ?_)
  split
  · refine ((act _).bind (fun _ => ?_)).bind (fun _ => pure _)
    exact (optionalField _ _).bind (fun _ => (optionalField _ _).bind (fun _ => pure _))
  · exact (haltOfFailure _).bind (fun _ => pure _)
  · exact pure _

theorem handle (s : Step) (context input : Value) : FailsOnly Fault.IsKnown (s.handle context input) := by
  unfold Step.handle
  split
  · exact (log _ _ _).bind (fun _ => (act _).known)
  · have report (v : Value) : FailsOnly Fault.IsKnown (do
        let v ← Job.act (Script.awaited v)
        return if Step.isReport (← MonadState.get) v then v else .nothing) :=
      ((act _).bind (fun _ => get.bind (fun _ => pure _))).known
    split
    · exact (compile _).bind (fun _ => (evaluate _ _).known.bind report)
    · exact (act _).known.bind report

theorem deliver (audience : Audience) (extra : Option Nat) (n : Notice) : FailsOnly P (Trace.deliver audience extra n) := by
  refine get.bind (fun w => ?_)
  intro w₁ fault w' failed
  obtain ⟨w₂, told⟩ := Trace.deliverTo_ok audience n (w.listeners ++ extra.toList) w₁
  cases told.symm.trans failed

theorem shown (v : Value) : FailsOnly Fault.IsStop (Job.shown v) := act _

theorem logEnd (call : Call) (event : Event) (v : View) : FailsOnly Fault.IsStop (call.logEnd event v) := by
  unfold Call.logEnd
  dsimp only
  split
  · exact pure _
  · refine (shown _).bind (fun _ => ?_)
    split
    · exact (shown _).bind (fun _ => log _ _ _)
    · exact log _ _ _
  · exact pure _
  · exact (shown _).bind (fun _ => log _ _ _)
  · exact pure _

theorem emit (audience : Audience) (call : Call) (event : Event) (v : View) :
    FailsOnly Fault.IsStop (call.emit audience event v) :=
  (logEnd call event v).bind (fun _ => (act _).bind (fun _ => (act _).bind (fun _ => deliver audience _ _)))

end FailsOnly

namespace Call
variable {call : Call} {w w' : World} {fault : Fault}

end Call

namespace FailsOnly

theorem schema (id : Value) : FailsOnly Fault.IsElsewhere (Executor.schema id) := by
  refine (act _).elsewhere.bind (fun _ => get.bind (fun w => ?_))
  split
  · exact pure _
  · exact fail trivial

theorem cursorsOf (items : List Value) : FailsOnly Fault.IsStop (State.cursorsOf items) := by
  induction items with
  | nil => exact pure _
  | cons v rest ih =>
    unfold State.cursorsOf
    split
    · exact ih.bind (fun _ => pure _)
    · exact act _

theorem ofData (data : Value) : FailsOnly Fault.IsElsewhere (State.ofData data) := by
  refine get.bind (fun w => ?_)
  dsimp only
  split
  · exact refuse trivial
  · split
    · exact pure _
    · split
      · exact pure _
      · exact (act _).elsewhere.bind (fun _ => refuse trivial)

theorem ofValue (v : Value) : FailsOnly Fault.IsElsewhere (State.ofValue v) := by
  unfold State.ofValue
  split
  · refine get.bind (fun w => ?_)
    split
    · exact (act _).elsewhere.bind (fun _ => (cursorsOf _).elsewhere.bind (fun _ => pure _))
    · exact ofData _
  · exact ofData _

theorem beginAt (call : Call) (items : Schema) (position : List Int) :
    FailsOnly Fault.IsElsewhere (Executor.beginAt call items position) := by
  refine (shown _).elsewhere.bind (fun name => ?_)
  split
  · exact refuse trivial
  · exact refuse trivial
  · exact refuse trivial
  · exact (act _).elsewhere
  · exact (log _ _ _).bind (fun _ => pure _)

end FailsOnly

theorem Tolerant.beginAt {S : World → World → Prop} (tolerant : Tolerant (fun _ _ => True) S) (call : Call) (items : Schema)
    (position : List Int) : Along S (Executor.beginAt call items position) := by
  refine tolerant.bind (tolerant.any (fun _ _ => trivial) _) (fun name => ?_)
  split
  · exact tolerant.refuse _
  · exact tolerant.refuse _
  · exact tolerant.refuse _
  · exact tolerant.any (fun _ _ => trivial) _
  · exact tolerant.bind (tolerant.log _ _ _) (fun _ => tolerant.pure _)

namespace Request

/-- A call that goes on from a state reads it from a value, or has read it before. -/
def Reads : Request → Prop
  | .resume _ state _ => (∃ v, state = State.ofValue v) ∨ ∃ s, state = pure s
  | _ => True

variable {r : Request} (reads : r.Reads)
include reads

end Request

namespace Request
variable {audience : Audience} {input : Value} {fuel : Nat} {r : Request} {w : World}

end Request

namespace Executor

end Executor

end Workflow
