import Workflow.Proofs.Brackets
import Workflow.Proofs.Keeping
import Workflow.Proofs.Telling

/-! The trace of a call: what its listeners hear, from the start of the call to its end or to its interruption. -/

namespace Workflow
open Script (Heap Value)
open Engine (Event Level Tale View talesOf)

namespace Engine

namespace Tale

/-- A row is interrupted. -/
def Interrupts : Tale → Prop
  | (.interrupted _, _) => True
  | _ => False

/-- The step that is told of, and its place. -/
def step? : Tale → Option (String × List Int)
  | (.step id, v) => some (id, v.cursors)
  | _ => none

end Tale

/-- The step that is invoked, and its place. -/
def Deed.step? : Deed σ → Option (String × List Int)
  | .checked _ _ _ _ _ _ => none
  | .invoked id _ _ place _ _ _ => some (id, place)

/-- No row is interrupted. -/
def Calm (ts : List Tale) : Prop := ∀ t ∈ ts, ¬ t.Interrupts

/-- Once a row is interrupted, the rows around it are, and nothing else is told of. -/
def InterruptsLast (ts : List Tale) : Prop := ∃ us vs, ts = us ++ vs ∧ Calm us ∧ ∀ t ∈ vs, t.Interrupts

theorem Calm.append {ts us : List Tale} (first : Calm ts) (rest : Calm us) : Calm (ts ++ us) :=
  List.forall_mem_append.mpr ⟨first, rest⟩

theorem Calm.last {ts : List Tale} (calm : Calm ts) : InterruptsLast ts :=
  ⟨ts, [], (List.append_nil ts).symm, calm, List.forall_mem_nil _⟩

theorem Calm.then {ts us : List Tale} (first : Calm ts) (rest : InterruptsLast us) : InterruptsLast (ts ++ us) := by
  obtain ⟨xs, ys, rfl, calm, last⟩ := rest
  exact ⟨ts ++ xs, ys, (List.append_assoc ts xs ys).symm, first.append calm, last⟩

theorem InterruptsLast.more {ts us : List Tale} (first : InterruptsLast ts) (rest : ∀ t ∈ us, t.Interrupts) :
    InterruptsLast (ts ++ us) := by
  obtain ⟨xs, ys, rfl, calm, last⟩ := first
  exact ⟨xs, ys ++ us, List.append_assoc xs ys us, calm, List.forall_mem_append.mpr ⟨last, rest⟩⟩

/-- After an interruption there are only interruptions. -/
theorem InterruptsLast.after {ts us vs : List Tale} {t : Tale} (last : InterruptsLast ts) (split : ts = us ++ t :: vs)
    (interrupts : t.Interrupts) : ∀ u ∈ vs, u.Interrupts := by
  obtain ⟨xs, ys, rfl, calm, last⟩ := last
  intro u later
  obtain ⟨as, before, here⟩ | ⟨bs, before, here⟩ := List.append_eq_append_iff.mp split
  · apply last
    rw [here]
    exact List.mem_append_right as (List.mem_cons_of_mem t later)
  · cases bs with
    | nil =>
      apply last
      rw [List.nil_append] at here
      rw [← here]
      exact List.mem_cons_of_mem t later
    | cons b bs =>
      -- the interruption would be among what is calm
      obtain ⟨rfl, -⟩ := List.cons.inj here
      exact absurd interrupts (calm t (before ▸ List.mem_append_right us List.mem_cons_self))

/-- A part does not end with a halt. -/
def End.Runs : End → Prop
  | .ok (.leave ⟨_, .halted _ _⟩) => False
  | .ok _ => True
  | .error _ => False

theorem End.runs_under {r : Report} {cursor : Int} (runs : End.Runs (.ok (.leave (r.under cursor)))) :
    End.Runs (.ok (.leave r)) := by
  obtain ⟨stepId, ending⟩ := r
  cases ending with
  | halted => exact runs
  | passed => trivial
  | signalled => trivial

theorem End.runs_ofBlock {p : Progress} {e : End} (runs : (e.ofBlock p).Runs) : e.Runs := by
  cases e with
  | error fault => exact runs
  | ok v =>
    obtain q | ⟨stepId, ending⟩ := v
    · trivial
    · cases ending with
      | halted => exact runs
      | passed => trivial
      | signalled => trivial

theorem End.runs_ofLoop {p : Progress} {e : End} (runs : (e.ofLoop p).Runs) : e.Runs := by
  cases e with
  | error fault => exact runs
  | ok v =>
    obtain q | ⟨stepId, ending⟩ := v
    · trivial
    · cases ending with
      | halted => exact runs
      | passed => trivial
      | signalled => trivial

theorem End.runs_again {p q : Progress} {e : End} (again : e.again? p = some q) : e.Runs := by
  cases e with
  | error fault => cases again
  | ok v =>
    obtain q | ⟨stepId, ending⟩ := v
    · trivial
    · cases ending with
      | halted => cases again
      | passed => trivial
      | signalled => trivial

theorem CheckMoments.calm {here stepId role c} {ms : List (Moment σ)} {answer}
    (check : CheckMoments here stepId role c ms answer) : Calm (talesOf ms) := by
  cases check with
  | told => exact List.forall_mem_singleton.mpr id
  | missed => exact List.forall_mem_nil _
  | stopped => exact List.forall_mem_nil _

theorem StepMoments.calm {here id literal supplied} {ms : List (Moment σ)} {e}
    (step : StepMoments here id literal supplied ms e) : Calm (talesOf ms) := by
  cases step with
  | told => exact List.forall_mem_singleton.mpr (fun impossible => impossible)
  | missed => exact List.forall_mem_nil _
  | failed => exact List.forall_mem_nil _

theorem TestMoments.calm {here stepId test resume} {ms : List (Moment σ)} (tested : TestMoments here stepId test resume ms) :
    Calm (talesOf ms) := by
  cases tested with
  | checked check => exact check.calm
  | resumed => exact List.forall_mem_nil _

/-- The closing of a row is an interruption exactly if the row halts. -/
theorem closing_interrupts_iff (v : Verdict) (level : Level) (here : List Int) :
    Tale.Interrupts (v.report.closing level here) ↔ ¬ End.Runs (.ok v) := by
  obtain p | ⟨stepId, ending⟩ := v
  · exact iff_of_false id (not_not_intro trivial)
  · cases ending with
    | passed => exact iff_of_false id (not_not_intro trivial)
    | signalled => exact iff_of_false id (not_not_intro trivial)
    | halted => exact iff_of_true trivial id

/-- What is told of a part that ends in some way: it is interrupted only when it halts or fails, and then there is nothing
more to tell of it. -/
structure Orderly (ts : List Tale) (e : End) : Prop where
  last : InterruptsLast ts
  calm : e.Runs → Calm ts

namespace Orderly
variable {ts us : List Tale} {e : End}

theorem of_calm (calm : Calm ts) : Orderly ts e := ⟨calm.last, fun _ => calm⟩

theorem after (rest : Orderly us e) (first : Calm ts) : Orderly (ts ++ us) e :=
  ⟨first.then rest.last, fun runs => first.append (rest.calm runs)⟩

theorem weaken {f : End} (orderly : Orderly ts e) (runs : f.Runs → e.Runs) : Orderly ts f :=
  ⟨orderly.last, fun ran => orderly.calm (runs ran)⟩

end Orderly

theorem CloseMoments.orderly {level here} {e f : End} {ms : List (Moment σ)} {ts : List Tale}
    (closes : CloseMoments level here e ms f) (inside : Orderly ts e) : Orderly (ts ++ talesOf ms) f := by
  cases closes with
  | @told v w w' =>
    by_cases runs : End.Runs (.ok v)
    · have closing : ¬ Tale.Interrupts (v.report.closing level here) := by
        rw [closing_interrupts_iff]
        exact not_not_intro runs
      exact .of_calm ((inside.calm runs).append (List.forall_mem_singleton.mpr closing))
    · have closing := (closing_interrupts_iff v level here).mpr runs
      exact ⟨inside.last.more (List.forall_mem_singleton.mpr closing), fun ran => absurd ran runs⟩
  | missed => exact ⟨inside.last.more (List.forall_mem_nil _), False.elim⟩
  | failed => exact ⟨inside.last.more (List.forall_mem_nil _), False.elim⟩

theorem Chronicle.orderly {here : List Int} {t : Part} {ms : List (Moment σ)} {e : End} (chronicle : Chronicle here t ms e) :
    Orderly (talesOf ms) e := by
  induction chronicle with
  | row_end => exact .of_calm (List.forall_mem_nil _)
  | row_onward first rest ihFirst ihRest =>
    rw [talesOf_append]
    exact ihRest.after (ihFirst.calm trivial)
  | row_leave first ih => exact ih.weaken End.runs_under
  | row_failed first ih => exact ih
  | ahead ahead row ih => exact ih
  | back back row again ihRow ihAgain =>
    rw [talesOf_append]
    exact ihAgain.after (ihRow.calm trivial)
  | back_end back row ends ih => exact ih
  | free free inside ih => exact ih
  | opened gated gate inside ih =>
    rw [talesOf_append]
    exact ih.after gate.calm
  | shut gated gate shut => exact .of_calm gate.calm
  | marker check => exact .of_calm check.calm
  | step step => exact .of_calm step.calm
  | block body ih => exact ih.weaken End.runs_ofBlock
  | loop loop ih => exact ih
  | @body here level resume supplied items w w' ms e ns f walk closes ih =>
    rw [talesOf_told, talesOf_append]
    exact (closes.orderly ih).after (List.forall_mem_singleton.mpr id)
  | body_missed => exact .of_calm (List.forall_mem_nil _)
  | spent => exact .of_calm (List.forall_mem_nil _)
  | tested check ends => exact .of_calm check.calm
  | round tested body again rest ihBody ihRest =>
    rw [talesOf_append, talesOf_append]
    exact (ihRest.after (ihBody.calm (End.runs_again again))).after tested.calm
  | round_end tested body ends ih =>
    rw [talesOf_append]
    exact (ih.weaken End.runs_ofLoop).after tested.calm

/-- The steps that are invoked, with their places. -/
def invocations (ms : List (Moment σ)) : List (String × List Int) := (deedsOf ms).filterMap Deed.step?

/-- The steps that are told of, with their places. -/
def stepsTold (ms : List (Moment σ)) : List (String × List Int) := (talesOf ms).filterMap Tale.step?

section
variable (ms ns : List (Moment σ))

theorem invocations_append : invocations (ms ++ ns) = invocations ms ++ invocations ns := by
  rw [invocations, deedsOf_append, List.filterMap_append]
  rfl

theorem stepsTold_append : stepsTold (ms ++ ns) = stepsTold ms ++ stepsTold ns := by
  rw [stepsTold, talesOf_append, List.filterMap_append]
  rfl

end

/-- The steps that are told of are those that are invoked. If a part fails, the last one may not have been told of. -/
def StepsFollow (ms : List (Moment σ)) (e : End) : Prop :=
  ∃ lost, invocations ms = stepsTold ms ++ lost ∧ lost.length ≤ 1 ∧ ∀ v, e = .ok v → lost = []

namespace StepsFollow
variable {ms ns : List (Moment σ)} {e f : End}

theorem all (same : invocations ms = stepsTold ms) : StepsFollow ms e :=
  ⟨[], by rw [same, List.append_nil], Nat.zero_le 1, fun _ _ => rfl⟩

theorem same {v : Verdict} (follow : StepsFollow ms (.ok v)) : invocations ms = stepsTold ms := by
  obtain ⟨lost, same, -, none⟩ := follow
  rwa [none v rfl, List.append_nil] at same

theorem after (rest : StepsFollow ns e) (first : invocations ms = stepsTold ms) : StepsFollow (ms ++ ns) e := by
  obtain ⟨lost, same, short, none⟩ := rest
  refine ⟨lost, ?_, short, none⟩
  rw [invocations_append, stepsTold_append, first, same, List.append_assoc]

theorem silently (first : StepsFollow ms e) (invoked : invocations ns = []) (told : stepsTold ns = [])
    (ok : ∀ v, f = .ok v → ∃ u, e = .ok u) : StepsFollow (ms ++ ns) f := by
  obtain ⟨lost, same, short, none⟩ := first
  refine ⟨lost, ?_, short, fun v done => ?_⟩
  · rw [invocations_append, stepsTold_append, same, invoked, told, List.append_nil, List.append_nil]
  · obtain ⟨u, done⟩ := ok v done
    exact none u done

theorem weaken (follow : StepsFollow ms e) (ok : ∀ v, f = .ok v → ∃ u, e = .ok u) : StepsFollow ms f := by
  have more : StepsFollow (ms ++ []) f := follow.silently rfl rfl ok
  rwa [List.append_nil] at more

end StepsFollow

theorem CheckMoments.no_steps {here stepId role c} {ms : List (Moment σ)} {answer}
    (check : CheckMoments here stepId role c ms answer) : invocations ms = stepsTold ms := by
  cases check <;> rfl

theorem TestMoments.no_steps {here stepId test resume} {ms : List (Moment σ)}
    (tested : TestMoments here stepId test resume ms) : invocations ms = stepsTold ms := by
  cases tested with
  | checked check => exact check.no_steps
  | resumed => rfl

theorem StepMoments.steps {here id literal supplied} {ms : List (Moment σ)} {e}
    (step : StepMoments here id literal supplied ms e) : StepsFollow ms e := by
  cases step with
  | told => exact .all rfl
  | missed => exact ⟨[(id, here)], rfl, Nat.le_refl 1, nofun⟩
  | failed => exact ⟨[(id, here)], rfl, Nat.le_refl 1, nofun⟩

theorem CloseMoments.steps {level here} {e f : End} {ms ns : List (Moment σ)} (closes : CloseMoments level here e ns f)
    (inside : StepsFollow ms e) : StepsFollow (ms ++ ns) f := by
  have step_none (r : Report) : Tale.step? (r.closing level here) = none := by
    unfold Report.closing
    cases r.ending <;> rfl
  cases closes with
  | @told v =>
    have told : Tale.step? ((v.report.closing level here).1, (v.report.closing level here).2) = none := step_none v.report
    exact inside.silently rfl (by simp [stepsTold, told]) (fun u _ => ⟨v, rfl⟩)
  | missed => exact inside.silently rfl rfl nofun
  | failed => exact inside.silently rfl rfl nofun

theorem Chronicle.steps {here : List Int} {t : Part} {ms : List (Moment σ)} {e : End} (chronicle : Chronicle here t ms e) :
    StepsFollow ms e := by
  induction chronicle with
  | row_end => exact .all rfl
  | row_onward first rest ihFirst ihRest => exact ihRest.after ihFirst.same
  | row_leave first ih => exact ih.weaken (fun v _ => ⟨_, rfl⟩)
  | row_failed first ih => exact ih
  | ahead ahead row ih => exact ih
  | back back row again ihRow ihAgain => exact ihAgain.after ihRow.same
  | back_end back row ends ih => exact ih
  | free free inside ih => exact ih
  | opened gated gate inside ih => exact ih.after gate.no_steps
  | shut gated gate shut => exact .all gate.no_steps
  | marker check => exact .all check.no_steps
  | step step => exact step.steps
  | block body ih => exact ih.weaken (fun _ => End.ok_ofBlock)
  | loop loop ih => exact ih
  | @body here level resume supplied items w w' ms e ns f walk closes ih =>
    have opening (v : View) : invocations [Moment.told (.opened level) v w w'] = stepsTold [.told (.opened level) v w w'] :=
      rfl
    exact (closes.steps ih).after (opening _)
  | body_missed => exact .all rfl
  | spent => exact .all rfl
  | tested check ends => exact .all check.no_steps
  | round tested body again rest ihBody ihRest =>
    obtain ⟨u, rfl⟩ := End.ok_again again
    exact (ihRest.after ihBody.same).after tested.no_steps
  | round_end tested body ends ih => exact (ih.weaken (fun _ => End.ok_ofLoop)).after tested.no_steps

section
variable {items : Schema} {level : Level} {position : List Int} {supplied : Value} {ms : List (Moment σ)}

/-- A schema that comes to an end is told of in one bracket. -/
theorem Chronicle.traced {v : Verdict} (chronicle : Chronicle [] (.body level position supplied items) ms (.ok v))
    (within : Schema.Within items position) (heard : Heard ms) :
    ∃ inner, talesOf ms =
        (.opened level, { cursors := position.headD 0 :: position.tail }) :: (inner ++ [v.report.closing level []]) ∧
      Going items [] position inner := by
  cases chronicle with
  | @body _ _ _ _ _ w w' ms e ns _ walk closes =>
    have heard : Heard (ms ++ ns) := heard.tail
    cases closes with
    | told =>
      have inside := (walk.completes (rowAt_root items) (Part.within_head within) heard.left nofun).told
      refine ⟨talesOf ms, ?_, Going.resume inside⟩
      rw [talesOf_told, talesOf_append]
      rfl

/-- A schema that fails is told of in a bracket that is not closed, and what is missing inside of it are closings. -/
theorem Chronicle.broken {fault : Fault} (chronicle : Chronicle [] (.body level position supplied items) ms (.error fault))
    (within : Schema.Within items position) (heard : Heard ms) (ends : fault ≠ .stopped .exhausted) :
    ∃ inner closings, talesOf ms = (.opened level, { cursors := position.headD 0 :: position.tail }) :: inner ∧
      (∀ c ∈ closings, Tale.Closing c) ∧ Going items [] position (inner ++ closings) := by
  cases chronicle with
  | @body _ _ _ _ _ w w' ms e ns _ walk closes =>
    have heard : Heard (ms ++ ns) := heard.tail
    have ends : e ≠ .error (.stopped .exhausted) := by
      rintro rfl
      cases closes
      exact ends rfl
    have silent : talesOf ns = [] := by cases closes <;> rfl
    obtain ⟨closings, -, closing, inside⟩ := walk.completes (rowAt_root items) (Part.within_head within) heard.left ends
    refine ⟨talesOf ms, closings, ?_, closing, Going.resume inside⟩
    rw [talesOf_told, talesOf_append, silent, List.append_nil]
    rfl
  | body_missed => exact absurd List.mem_cons_self (heard _ _ _ _ _)

end

end Engine

namespace Call
variable {audience : Audience} {call : Call} {event : Event} {v : View} {w w' : World}

/-- An event is delivered: those who are attached, and last the listener of the call, hear of it one after the other. They
hear what it is about, with the result under way, which holds the place of the event. -/
inductive Delivers (audience : Audience) (call : Call) (event : Event) (v : View) (w w' : World) : Prop where
  | intro {n : Notice} {r : Result} {h : Heap} {w₁ : World}
      (reaches : Trace.deliver audience call.listener n w₁ = .ok () w') (attached : w₁.listeners = w.listeners)
      (named : n.event = event.name) (about : call.payload event h = .ok n.payload w₁.heap) (shown : n.result = some r)
      (place : r.indexes.listItems? w₁.heap = some (v.cursors.map Value.int).toArray)
      (interrupt : r.interrupt = .bool v.halt.isSome)

theorem logEnd_listeners {w₁ : World} (logged : call.logEnd event v w = .ok () w₁) : w₁.listeners = w.listeners := by
  have tolerant : Tolerant (fun _ _ => True) (fun w w' : World => w'.listeners = w.listeners) := {
    refl := fun _ => rfl
    trans := fun first second => second.trans first
    heap := fun _ _ _ => rfl
    compiled := fun _ _ _ _ => rfl
    logged := fun _ _ => rfl }
  have kept := tolerant.logEnd (fun _ _ _ => trivial) call event v w
  rw [logged] at kept
  exact kept

theorem payload_extends (call : Call) (event : Event) (h : Heap) : ∃ payload h', call.payload event h = .ok payload h' ∧ h.Extends h' := by
  cases event with
  | checked role c passed => exact ⟨_, _, rfl, .alloc h _⟩
  | _ => exact ⟨_, _, rfl, .refl h⟩

theorem emit_delivers (told : call.emit audience event v w = .ok () w') : call.Delivers audience event v w w' := by
  obtain ⟨_, w₁, logged, told⟩ := Engine.Work.bind_ok told
  obtain ⟨r, w₂, made, told⟩ := Engine.Work.bind_ok told
  obtain ⟨payload, w₃, paid, told⟩ := Engine.Work.bind_ok told
  cases made
  obtain ⟨_, h, about, grows⟩ := call.payload_extends event (w₁.heap.alloc (.list (v.cursors.map Value.int).toArray)).2
  obtain ⟨_, again, rfl⟩ := Job.act_ok paid
  cases about.symm.trans again
  have list := grows _ _ (w₁.heap.alloc_found (.list (v.cursors.map Value.int).toArray))
  have attached := logEnd_listeners logged
  refine .intro told attached rfl about rfl ?_ rfl
  simp only [Value.listItems?, Heap.object_of_getElem? list]

end Call

open Engine (invocations stepsTold)

/-- What is told of a call that began, wherever it comes to: an interruption is followed by nothing but interruptions, each
step is told of at its place, and all of it is delivered. -/
structure Beginning.Tells (b : Beginning) (audience : Audience) (ms : List (Engine.Moment World)) : Prop where
  last : ∀ us (t : Tale) vs, talesOf ms = us ++ t :: vs → t.Interrupts → ∀ u ∈ vs, Tale.Interrupts u
  placed : ∀ id v, (.step id, v) ∈ talesOf ms → ∃ literal gate, b.items.find? v.cursors = some (.step id literal gate)
  delivered : ∀ event v w w', .told event v w w' ∈ ms → b.call.Delivers audience event v w w'

/-- What is told of a call that returns: one bracket, whose content follows the schema, with each step that is invoked. The
bracket is closed by an interruption exactly if the call is halted. -/
structure Beginning.Closes (b : Beginning) (audience : Audience) (level : Level) (e : Execution) (ms : List (Engine.Moment World)) :
    Prop extends b.Tells audience ms where
  bracket : ∃ v inner, talesOf ms =
      (.opened level, v) :: (inner ++ [(if e.halted?.isSome then .interrupted level else .ended level, e.view)]) ∧
    v.cursors = b.position.headD 0 :: b.position.tail ∧ Engine.Going b.items [] b.position inner
  steps : stepsTold ms = invocations ms

/-- What is told of a call that fails: an open bracket. All that is missing inside of it are closings, and the last step that
was invoked may be missing as well. -/
structure Beginning.Breaks (b : Beginning) (audience : Audience) (level : Level) (ms : List (Engine.Moment World)) :
    Prop extends b.Tells audience ms where
  bracket : ∃ v inner closings, talesOf ms = (.opened level, v) :: inner ∧
    v.cursors = b.position.headD 0 :: b.position.tail ∧ (∀ c ∈ closings, Tale.Closing c) ∧
    Engine.Going b.items [] b.position (inner ++ closings)
  steps : ∃ lost, invocations ms = stepsTold ms ++ lost ∧ lost.length ≤ 1

/-- The end of a call is told of with its result. -/
theorem Execution.closing_eq (e : Execution) {level : Level} (outer : level ≠ .nested) :
    e.report.closing level [] = (if e.halted?.isSome then .interrupted level else .ended level, e.view) := by
  obtain ⟨call, stepId, ending⟩ := e
  cases ending <;> cases level <;> first | rfl | exact absurd rfl outer

namespace Request
variable {audience : Audience} {input : Value} {fuel : Nat} {r : Request} {w w' : World} {b : Beginning} {w₁ : World}

/-- The moments of a call that began are those of its host, in an order that follows its schema. -/
theorem chronicled (audience : Audience) (input : Value) (fuel : Nat) (begun : r.opening w = .ok b w₁) :
    ∃ e w', Engine.Chronicle [] (.body r.level b.position input b.items) (r.moments audience input fuel w) e ∧
      Engine.run (b.call.host audience) fuel r.level b.items b.position input w₁ =
        Engine.answered (e.map Engine.Verdict.report) w' ∧
      ∀ m ∈ r.moments audience input fuel w, m.Of (b.call.host audience) := by
  obtain ⟨e, w', chronicle, same⟩ := Engine.run_chronicle (b.call.host audience) fuel r.level b.items b.position input w₁
  obtain ⟨_, _, -, -, -, real⟩ := Engine.run_observed (b.call.host audience) fuel r.level b.items b.position input w₁
  have moments : r.moments audience input fuel w =
      Engine.moments (b.call.host audience) fuel r.level b.items b.position input w₁ := by rw [Request.moments, begun]
  rw [moments]
  exact ⟨e, w', chronicle, same, real⟩

theorem tells (begun : r.opening w = .ok b w₁) : b.Tells audience (r.moments audience input fuel w) := by
  obtain ⟨e, _, chronicle, -, real⟩ := chronicled audience input fuel begun
  refine ⟨fun us t vs split => chronicle.orderly.last.after split, ?_, fun event v u u' member => ?_⟩
  · intro id v told
    obtain ⟨lost, same, -⟩ := chronicle.steps
    have step : (id, v.cursors) ∈ stepsTold (r.moments audience input fuel w) := List.mem_filterMap.mpr ⟨_, told, rfl⟩
    have invoked : (id, v.cursors) ∈ invocations (r.moments audience input fuel w) := by
      rw [same]
      exact List.mem_append_left lost step
    obtain ⟨d, member, found⟩ := List.mem_filterMap.mp invoked
    cases d with
    | checked => cases found
    | invoked =>
      cases found
      obtain ⟨i, there, poses⟩ := placed audience input fuel r w begun _ member
      cases poses with
      | step => exact ⟨_, _, there⟩
  · exact Call.emit_delivers (real _ member)

/-- A call can tell of every row that begins. -/
theorem heard (begun : r.opening w = .ok b w₁) : Engine.Heard (r.moments audience input fuel w) := by
  obtain ⟨e, _, -, -, real⟩ := chronicled audience input fuel begun
  intro level v u fault u' member
  obtain ⟨_, told⟩ : ∃ u', b.call.emit audience (.opened level) v u = .ok () u' := Call.emit_of_logEnd rfl
  cases told.symm.trans (real _ member)

theorem level_outer (r : Request) : r.level ≠ .nested := by cases r <;> nofun

theorem closes {e : Execution} (begun : r.opening w = .ok b w₁)
    (ran : Engine.run (b.call.host audience) fuel r.level b.items b.position input w₁ = .ok e.report w') :
    b.Closes audience r.level e (r.moments audience input fuel w) := by
  obtain ⟨f, w₂, chronicle, course, -⟩ := chronicled audience input fuel begun
  rw [ran] at course
  cases f with
  | error fault => cases course
  | ok v =>
    obtain ⟨same, -⟩ := EStateM.Result.ok.inj course
    obtain ⟨inner, tale, inside⟩ := chronicle.traced (opening_ok begun).2.within (heard begun)
    rw [← same, Execution.closing_eq e r.level_outer] at tale
    exact ⟨tells begun, ⟨_, inner, tale, rfl, inside⟩, chronicle.steps.same.symm⟩

theorem breaks {fault : Fault} (begun : r.opening w = .ok b w₁)
    (ran : Engine.run (b.call.host audience) fuel r.level b.items b.position input w₁ = .error fault w')
    (lasts : fault ≠ .stopped .exhausted) : b.Breaks audience r.level (r.moments audience input fuel w) := by
  obtain ⟨f, w₂, chronicle, course, -⟩ := chronicled audience input fuel begun
  rw [ran] at course
  cases f with
  | ok v => cases course
  | error raised =>
    cases course
    obtain ⟨inner, closings, tale, closing, inside⟩ := chronicle.broken (opening_ok begun).2.within (heard begun) lasts
    obtain ⟨lost, follow, short, -⟩ := chronicle.steps
    exact ⟨tells begun, ⟨_, inner, closings, tale, rfl, closing, inside⟩, lost, follow, short⟩

/-- The trace of every call is well bracketed, as far as the call comes. -/
theorem well_bracketed (audience : Audience) (input : Value) (fuel : Nat) (r : Request) (w : World) :
    (∀ e w', r.perform audience input fuel w = .ok e w' → ∃ b w₁, r.opening w = .ok b w₁ ∧ e.call = b.call ∧
      b.Closes audience r.level e (r.moments audience input fuel w)) ∧
    (∀ fault w', r.perform audience input fuel w = .error fault w' → fault ≠ .stopped .exhausted →
      r.opening w = .error fault w' ∧ r.moments audience input fuel w = [] ∨
      ∃ b w₁, r.opening w = .ok b w₁ ∧ b.Breaks audience r.level (r.moments audience input fuel w)) := by
  constructor
  · intro e w' ran
    obtain ⟨b, w₁, begun, same, ran⟩ := returned ran
    exact ⟨b, w₁, begun, same, closes begun ran⟩
  · intro fault w' ran lasts
    obtain refused | ⟨b, w₁, begun, ran⟩ := failed ran
    · exact .inl ⟨refused, by rw [moments, refused]⟩
    · exact .inr ⟨b, w₁, begun, breaks begun ran lasts⟩

end Request

/-- A world with a step that asks for its input, in a block. -/
def World.nested : World :=
  { registry := { steps := [{ id := "ask", handler := .source "input", input := .str "name" }]
                  schemas := [{ id := .str "nested", items := [.block [.step "ask" .nothing none] none], space := .nothing }] } }

def Call.nested : Call := { schema := .str "nested", context := .nothing }

/-- Of a step that halts inside of a block, two interruptions are told. -/
theorem Request.nested_bracketed : ∃ e w' b w₁, (Request.start .nested).perform .silent .nothing 1 .nested = .ok e w' ∧
    (Request.start .nested).opening .nested = .ok b w₁ ∧
    b.Closes .silent .started e ((Request.start .nested).moments .silent .nothing 1 .nested) ∧
    (talesOf ((Request.start .nested).moments .silent .nothing 1 .nested)).map (fun t => t.1.name) =
      ["workflow-start", "subflow-start", "step", "subflow-interrupt", "workflow-interrupt"] := by
  have plays : Engine.passes (fun _ _ => true) ((Request.start .nested).perform .silent .nothing 1 .nested) = true := by
    decide +kernel
  obtain ⟨e, w', ran, -⟩ := Engine.exists_of_passes plays
  obtain ⟨b, w₁, begun, -, closes⟩ := (well_bracketed .silent .nothing 1 _ _).1 e w' ran
  exact ⟨e, w', b, w₁, ran, begun, closes, by decide +kernel⟩

end Workflow
