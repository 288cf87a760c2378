import Workflow.Executor
import Workflow.Proofs.Deeds
import Workflow.Proofs.Heaps

/-! What work leaves alone. A relation goes along with some work if it holds between the world in which the work
begins and the one that it leaves, however it ends. What the engine itself does is to make new values and to write
to the log; all else is done by conditions, by steps and by listeners. -/

namespace Workflow
open Script (Act Heap Value)

/-- The world that some work leaves. -/
def leftBy {ε : Type} : EStateM.Result ε σ α → σ
  | .ok _ w => w
  | .error _ w => w

/-- A relation holds between the worlds before and after some work. -/
def Along {ε : Type} (S : σ → σ → Prop) (x : EStateM ε σ α) : Prop := ∀ w, S w (leftBy (x w))

theorem Along.ok {ε : Type} {S : σ → σ → Prop} {x : EStateM ε σ α} (along : Along S x) {w w' : σ} {a : α}
    (ran : x w = .ok a w') : S w w' := by
  have left := along w
  rw [ran] at left
  exact left

theorem Along.error {ε : Type} {S : σ → σ → Prop} {x : EStateM ε σ α} (along : Along S x) {w w' : σ} {e : ε}
    (ran : x w = .error e w') : S w w' := by
  have left := along w
  rw [ran] at left
  exact left

/-- A relation that holds along no work, and along work after work. -/
structure Lasting (S : σ → σ → Prop) : Prop where
  refl : ∀ w, S w w
  trans : ∀ {w w' w''}, S w w' → S w' w'' → S w w''

namespace Lasting
variable {ε : Type} {S : σ → σ → Prop} (lasting : Lasting S)
include lasting

theorem pure (a : α) : Along S (Pure.pure a : EStateM ε σ α) := fun w => lasting.refl w

theorem throw (e : ε) : Along S (throwThe ε e : EStateM ε σ α) := fun w => lasting.refl w

theorem get : Along S (MonadState.get : EStateM ε σ σ) := fun w => lasting.refl w

theorem bind {x : EStateM ε σ α} {k : α → EStateM ε σ β} (first : Along S x) (rest : ∀ a, Along S (k a)) :
    Along S (x >>= k) := by
  intro w
  have begun := first w
  simp only [Bind.bind, EStateM.bind]
  cases ran : x w with
  | ok a w' =>
    rw [ran] at begun
    exact lasting.trans begun (rest a w')
  | error e w' =>
    rw [ran] at begun
    exact begun

theorem forM {k : α → EStateM ε σ PUnit} (each : ∀ a, Along S (k a)) (items : List α) : Along S (items.forM k) := by
  induction items with
  | nil => exact lasting.pure _
  | cons a rest ih => exact lasting.bind (each a) (fun _ => ih)

/-- What is done in one of two cases, and then something more. -/
theorem either {c : Prop} [Decidable c] {x : EStateM ε σ α} {k : α → EStateM ε σ β}
    {y : EStateM ε σ β} (first : Along S x)
    (rest : ∀ a, Along S (k a)) (other : Along S y) : Along S (if c then x >>= k else y) := by
  split
  · exact lasting.bind first rest
  · exact other

end Lasting

/-- Every object of a heap is still there, as it was, and the same errors are being handled. -/
structure Script.Heap.Grows (h h' : Heap) : Prop where
  objects : h.Extends h'
  handling : h'.handling = h.handling

namespace Script.Heap.Grows

theorem alloc (h : Heap) (o : Object) : h.Grows (h.alloc o).2 := ⟨.alloc h o, rfl⟩

theorem lasting : Lasting Heap.Grows where
  refl h := ⟨.refl h, rfl⟩
  trans first second := ⟨first.objects.trans second.objects, second.handling.trans first.handling⟩

end Script.Heap.Grows

/-! Acts that only make new values. -/

namespace Script.Act

theorem allocate_grows (o : Object) : Along Heap.Grows (allocate o) := fun h => .alloc h o

theorem fail_grows (c : ErrorClass) (message : String) : Along Heap.Grows (fail c message : Act α) :=
  fun h => .alloc h _

theorem rendered_grows (write : Heap → Except RenderFault String) : Along Heap.Grows (rendered write) := by
  refine Heap.Grows.lasting.bind Heap.Grows.lasting.get (fun h => ?_)
  split
  · exact Heap.Grows.lasting.pure _
  · exact fail_grows _ _
  · exact fail_grows _ _

end Script.Act

/-! Traversals. A relation goes along with all of a traversal if it goes along with its deeds and its tales. -/

namespace Engine
variable {σ : Type} {S : σ → σ → Prop} {host : Host σ}

/-- What is done up to some world, and a relation that holds if it goes along with each deed. -/
def Follows (S : σ → σ → Prop) (first : σ) (v : σ × List (Deed σ)) (w : σ) : Prop :=
  v.1 = w ∧ ((∀ d ∈ v.2, S d.before d.after) → S first w)

theorem Follows.deed {first w w' : σ} {log : List (Deed σ)} (lasting : Lasting S) (follows : Follows S first (w, log) w)
    {d : Deed σ} (before : d.before = w) (after : d.after = w') : Follows S first (w', log ++ [d]) w' := by
  refine ⟨rfl, fun each => ?_⟩
  subst before after
  exact lasting.trans (follows.2 (fun e member => each e (by simp [member]))) (each d (by simp))

theorem follows_agree (lasting : Lasting S) (told : ∀ event v, Along S (host.emit event v)) (first : σ) :
    HostsAgree (Follows S first) host.recorded host where
  check role c place := by
    rintro ⟨w, log⟩ _ ⟨rfl, follows⟩
    obtain ⟨a, w', found⟩ := exists_answered (host.check role c place w)
    exact ⟨a, _, w', recorded_check host w log a found, found, Follows.deed lasting ⟨rfl, follows⟩ rfl rfl⟩
  invoke id literal supplied place := by
    rintro ⟨w, log⟩ _ ⟨rfl, follows⟩
    obtain ⟨a, w', found⟩ := exists_answered (host.invoke id literal supplied place w)
    exact ⟨a, _, w', recorded_invoke host w log a found, found, Follows.deed lasting ⟨rfl, follows⟩ rfl rfl⟩
  emit event v := by
    rintro ⟨w, log⟩ _ ⟨rfl, follows⟩
    obtain ⟨a, w', found⟩ := exists_answered (host.emit event v w)
    refine ⟨a, _, w', recorded_emit host w log a found, found, rfl, fun each => lasting.trans (follows each) ?_⟩
    have last := told event v w
    rw [found] at last
    cases a <;> exact last

/-- A relation that goes along with whatever is told goes along with a traversal if it does with each deed. -/
theorem run_follows (lasting : Lasting S) (told : ∀ event v, Along S (host.emit event v)) {fuel : Nat} {level : Level}
    {items : Schema} {position : List Int} {input : Value} {w : σ}
    (each : ∀ d ∈ deeds host fuel level items position input w, S d.before d.after) :
    S w (leftBy (run host fuel level items position input w)) := by
  have start : Follows S w (w, []) w := ⟨rfl, fun _ => lasting.refl w⟩
  obtain ⟨a, ⟨w', log⟩, _, left, right, rfl, follows⟩ :=
    run_agree (follows_agree lasting told w) fuel level items position input (w, []) w start
  have noted : deeds host fuel level items position input w = log := by
    rw [deeds, left]
    cases a <;> rfl
  rw [noted] at each
  rw [right]
  cases a <;> exact follows each

theorem same_agree (lasting : Lasting S) (checked : ∀ role c place, Along S (host.check role c place))
    (invoked : ∀ id literal supplied place, Along S (host.invoke id literal supplied place))
    (told : ∀ event v, Along S (host.emit event v)) (first : σ) :
    HostsAgree (fun v w => v = w ∧ S first w) host host := by
  have agree {α : Type} {x : Work σ α} (along : Along S x) : Agree (fun v w => v = w ∧ S first w) x x := by
    rintro w _ ⟨rfl, before⟩
    obtain ⟨a, w', found⟩ := exists_answered (x w)
    refine ⟨a, w', w', found, found, rfl, lasting.trans before ?_⟩
    have last := along w
    rw [found] at last
    cases a <;> exact last
  exact ⟨fun _ _ _ => agree (checked _ _ _), fun _ _ _ _ => agree (invoked _ _ _ _), fun _ _ => agree (told _ _)⟩

theorem run_along (lasting : Lasting S) (checked : ∀ role c place, Along S (host.check role c place))
    (invoked : ∀ id literal supplied place, Along S (host.invoke id literal supplied place))
    (told : ∀ event v, Along S (host.emit event v)) (fuel : Nat) (level : Level) (items : Schema)
    (position : List Int) (input : Value) : Along S (run host fuel level items position input) := by
  intro w
  obtain ⟨a, w', _, ran, -, rfl, last⟩ := run_agree (same_agree lasting checked invoked told w) fuel level items position
    input w w ⟨rfl, lasting.refl w⟩
  rw [ran]
  cases a <;> exact last

end Engine

/-! Jobs. -/

theorem Job.act_ok {act : Act α} {a : α} {w w' : World} (ran : Job.act act w = .ok a w') :
    ∃ h, act w.heap = .ok a h ∧ w' = { w with heap := h } := by
  unfold Job.act at ran
  split at ran
  · next h found =>
    cases ran
    exact ⟨h, found, rfl⟩
  · cases ran

/-- A relation between worlds that puts up with changes of the heap of some kind, with compiling and with the log. -/
structure Tolerant (moves : Heap → Heap → Prop) (S : World → World → Prop) : Prop extends Lasting S where
  heap : ∀ w h, moves w.heap h → S w { w with heap := h }
  compiled : ∀ w source found, w.evaluator.compile source = .ok found → S w { w with evaluator := found.evaluator }
  logged : ∀ w r, S w { w with journal := w.journal.push (.logged r) }

/-- Listeners go along with a relation. -/
def Audience.Heeds (S : World → World → Prop) (audience : Audience) : Prop :=
  ∀ listener n w, S w (audience listener n w).2

namespace Tolerant
variable {moves : Heap → Heap → Prop} {S : World → World → Prop} (tolerant : Tolerant moves S)
include tolerant

theorem act {a : Act α} (within : Along moves a) : Along S (Job.act a) := by
  intro w
  have moved := within w.heap
  simp only [Job.act]
  cases ran : a w.heap with
  | ok v h =>
    rw [ran] at moved
    exact tolerant.heap w h moved
  | error stop h =>
    rw [ran] at moved
    exact tolerant.heap w h moved

theorem log (level : LogLevel) (logger message : String) : Along S (Job.log level logger message) :=
  fun w => tolerant.logged w _

theorem refuse (cause : Invalid) : Along S (Job.refuse cause : Job α) := fun w => tolerant.refl w

theorem fail (fault : Fault) : Along S (Job.fail fault : Job α) := fun w => tolerant.refl w

omit tolerant in
theorem attempt {job : Job α} (along : Along S job) : Along S (Job.attempt job) := by
  intro w
  have left := along w
  simp only [Job.attempt]
  cases ran : job w with
  | ok a w' =>
    rw [ran] at left
    exact left
  | error fault w' =>
    rw [ran] at left
    exact left

theorem deliverTo {audience : Audience} (heeds : audience.Heeds S) (n : Notice) (listeners : List Nat) :
    Along S (Trace.deliverTo audience n listeners) := by
  induction listeners with
  | nil => exact tolerant.pure _
  | cons listener rest ih =>
    intro w
    have heard := heeds listener n w
    simp only [Trace.deliverTo, Bind.bind, EStateM.bind, Script.get_result, Script.set_result]
    split
    · exact tolerant.trans (tolerant.trans heard (tolerant.logged _ _)) (ih _)
    · exact tolerant.trans heard (ih _)

/-! What the engine tells makes new values at most. -/

section
variable (grows : ∀ h h', h.Grows h' → moves h h')
include grows

theorem adds {a : Act α} (within : Along Heap.Grows a) : Along S (Job.act a) :=
  tolerant.act (fun h => grows _ _ (within h))

theorem shown (v : Value) : Along S (Job.shown v) := tolerant.adds grows (Act.rendered_grows _)

theorem logEnd (call : Call) (event : Engine.Event) (v : Engine.View) : Along S (call.logEnd event v) := by
  unfold Call.logEnd
  dsimp only
  split
  · exact tolerant.pure _
  · refine tolerant.bind (tolerant.shown grows _) (fun _ => ?_)
    split
    · exact tolerant.bind (tolerant.shown grows _) (fun _ => tolerant.log _ _ _)
    · exact tolerant.log _ _ _
  · exact tolerant.pure _
  · exact tolerant.bind (tolerant.shown grows _) (fun _ => tolerant.log _ _ _)
  · exact tolerant.pure _

theorem payload (call : Call) (event : Engine.Event) : Along S (Job.act (call.payload event)) := by
  refine tolerant.adds grows ?_
  unfold Call.payload
  split
  · exact Heap.Grows.lasting.pure _
  · exact Act.allocate_grows _
  · exact Heap.Grows.lasting.pure _

theorem emit {audience : Audience} (heeds : audience.Heeds S) (call : Call) (event : Engine.Event) (v : Engine.View) :
    Along S (call.emit audience event v) := by
  have result : Along Heap.Grows (call.result v) :=
    Heap.Grows.lasting.bind (Act.allocate_grows _) (fun _ => Heap.Grows.lasting.pure _)
  refine tolerant.bind (tolerant.logEnd grows call event v) (fun _ => ?_)
  refine tolerant.bind (tolerant.adds grows result) (fun _ => ?_)
  refine tolerant.bind (tolerant.payload grows call event) (fun _ => ?_)
  exact tolerant.bind tolerant.get (fun _ => tolerant.deliverTo heeds _ _)

theorem payloadText (payload : Value) : Along S (Trace.payloadText payload) := by
  refine tolerant.bind tolerant.get (fun w => ?_)
  have answered (name : String) (v : Value) : Along S (do return s!"{name} -> {← Job.shown v}") :=
    tolerant.bind (tolerant.shown grows _) (fun _ => tolerant.pure _)
  dsimp only
  split
  · exact tolerant.shown grows _
  · split
    · exact tolerant.bind (tolerant.pure _) (fun _ => answered _ _)
    · split
      · exact tolerant.bind (tolerant.pure _) (fun _ => answered _ _)
      · exact tolerant.bind (tolerant.adds grows (Act.rendered_grows _)) (fun _ => answered _ _)

theorem timeText (time : Value) : Along S (Trace.timeText time) := by
  unfold Trace.timeText
  split
  · exact tolerant.pure _
  · exact tolerant.pure _
  · split
    · exact tolerant.pure _
    · exact tolerant.adds grows (Act.fail_grows _ _)

theorem logNotice (n : Notice) : Along S (Trace.logNotice n) := by
  refine tolerant.bind (tolerant.payloadText grows _) (fun _ => ?_)
  split
  · exact tolerant.adds grows (Act.fail_grows _ _)
  · refine tolerant.bind (tolerant.shown grows _) (fun _ => tolerant.bind (tolerant.shown grows _) (fun _ => ?_))
    exact tolerant.bind (tolerant.timeText grows _) (fun _ => tolerant.log _ _ _)

/-- The listener that writes notices to the log makes new values at most. -/
theorem logging : Audience.Heeds S (fun _ n w => Trace.logging n w) := by
  intro listener n w
  have logged := tolerant.logNotice grows n w
  simp only [Trace.logging]
  cases ran : Trace.logNotice n w with
  | ok a w' =>
    rw [ran] at logged
    exact logged
  | error fault w' => exact tolerant.refl w

theorem schema (id : Value) : Along S (Executor.schema id) := by
  have checked : Along Heap.Grows (Act.checkKey id) := by
    refine Heap.Grows.lasting.bind Heap.Grows.lasting.get (fun h => ?_)
    split
    · exact Act.fail_grows _ _
    · exact Heap.Grows.lasting.pure _
  refine tolerant.bind (tolerant.adds grows checked) (fun _ => tolerant.bind tolerant.get (fun w => ?_))
  split
  · exact tolerant.pure _
  · exact tolerant.fail _

theorem ofData (data : Value) : Along S (State.ofData data) := by
  refine tolerant.bind tolerant.get (fun w => ?_)
  dsimp only
  split
  · exact tolerant.refuse _
  · split
    · exact tolerant.pure _
    · split
      · exact tolerant.pure _
      · exact tolerant.bind (tolerant.adds grows (Act.rendered_grows _)) (fun _ => tolerant.refuse _)

theorem cursorsOf (items : List Value) : Along S (State.cursorsOf items) := by
  induction items with
  | nil => exact tolerant.pure _
  | cons v rest ih =>
    unfold State.cursorsOf
    split
    · exact tolerant.bind ih (fun _ => tolerant.pure _)
    · exact tolerant.adds grows (Act.fail_grows _ _)

end

/-! Conditions, steps and callers may do anything to the heap. -/

section
variable (free : ∀ h h', moves h h')
include free

theorem any (a : Act α) : Along S (Job.act a) := tolerant.act (fun _ => free _ _)

omit free tolerant in
theorem orRetriable {job : Job α} (along : Along S job) : Along S (Job.orRetriable job) := by
  intro w
  have left := along w
  simp only [Job.orRetriable]
  split
  · next ran =>
    rw [ran] at left
    exact left
  · next ran =>
    rw [ran] at left
    split <;> exact left
  · next ran =>
    rw [ran] at left
    exact left

omit free in
theorem compile (source : String) : Along S (Job.compile source) := by
  refine tolerant.bind (fun w => ?_) (fun _ => tolerant.pure _)
  simp only [Job.compiled, Bind.bind, EStateM.bind, Script.get_result]
  cases made : w.evaluator.compile source with
  | error fault => cases fault <;> exact tolerant.refl w
  | ok found =>
    dsimp only
    split
    · exact tolerant.trans (tolerant.compiled w source found made) (tolerant.logged _ _)
    · exact tolerant.compiled w source found made

theorem evaluate (program : Script.Program) (bindings : Script.Entries) : Along S (Job.evaluate program bindings) :=
  tolerant.bind tolerant.get (fun _ => tolerant.any free _)

omit free in
theorem optionalField (v : Value) (name : String) : Along S (Job.optionalField v name) := by
  refine tolerant.bind tolerant.get (fun w => ?_)
  split
  · exact tolerant.pure _
  · exact tolerant.pure _

theorem haltOfInput (v : Value) : Along S (Job.haltOfInput v) :=
  tolerant.bind (tolerant.any free _) (fun _ => tolerant.bind (tolerant.optionalField v _) (fun _ =>
    tolerant.bind (tolerant.optionalField v _) (fun _ => tolerant.pure _)))

theorem haltOfFailure (v : Value) : Along S (Job.haltOfFailure v) :=
  tolerant.bind (tolerant.any free _) (fun _ => tolerant.bind (tolerant.any free _) (fun _ =>
    tolerant.bind (tolerant.any free _) (fun _ => tolerant.bind (tolerant.any free _) (fun _ => tolerant.pure _))))

theorem outcomeOf (report : Value) : Along S (Job.outcomeOf report) := by
  refine tolerant.bind tolerant.get (fun w => ?_)
  split
  · exact tolerant.bind (tolerant.haltOfInput free _) (fun _ => tolerant.pure _)
  · exact tolerant.bind (tolerant.haltOfFailure free _) (fun _ => tolerant.pure _)
  · exact tolerant.pure _

theorem handle (s : Step) (context input : Value) : Along S (s.handle context input) := by
  unfold Step.handle
  split
  · exact tolerant.bind (tolerant.log _ _ _) (fun _ => tolerant.any free _)
  · have report (v : Value) : Along S (do
        let v ← Job.act (Script.awaited v)
        return if Step.isReport (← get) v then v else .nothing) :=
      tolerant.bind (tolerant.any free _) (fun _ => tolerant.bind tolerant.get (fun _ => tolerant.pure _))
    split
    · exact tolerant.bind (tolerant.compile _) (fun _ => tolerant.bind (tolerant.evaluate free _ _) report)
    · exact tolerant.bind (tolerant.any free _) report

theorem decide (call : Call) (c : Condition) : Along S (call.decide c) := by
  have answer (v : Value) : Along S (do
      let v ← Job.act (Script.awaited v)
      Job.act (Act.truth v)) := tolerant.bind (tolerant.any free _) (fun _ => tolerant.any free _)
  cases c with
  | source text =>
    exact tolerant.bind (tolerant.compile _) (fun _ => tolerant.bind (tolerant.any free _) (fun _ =>
      tolerant.bind (tolerant.evaluate free _ _) answer))
  | call f => exact tolerant.bind (tolerant.any free _) answer

theorem check (call : Call) (c : Condition) : Along S (call.check c) := by
  refine tolerant.bind (Tolerant.orRetriable (tolerant.decide free call c)) (fun r => ?_)
  cases r with
  | ok passed => exact tolerant.pure _
  | error failure => exact tolerant.bind (tolerant.haltOfFailure free _) (fun _ => tolerant.pure _)

omit free in
theorem step (id : String) : Along S (Executor.step id) := by
  refine tolerant.bind tolerant.get (fun w => ?_)
  split
  · exact tolerant.pure _
  · exact tolerant.fail _

theorem invoke (call : Call) (id : String) (literal supplied : Value) (place : List Int) :
    Along S (call.invoke id literal supplied place) := by
  refine tolerant.bind (tolerant.step id) (fun s => tolerant.bind (tolerant.any free _) (fun input => ?_))
  refine tolerant.bind (tolerant.log _ _ _) (fun _ => ?_)
  refine tolerant.bind (Tolerant.orRetriable (tolerant.handle free s call.context input)) (fun r => ?_)
  cases r with
  | ok report => exact tolerant.outcomeOf free _
  | error failure => exact tolerant.bind (tolerant.haltOfFailure free _) (fun _ => tolerant.pure _)

theorem run {audience : Audience} (heeds : audience.Heeds S) (call : Call) (level : Engine.Level) (items : Schema)
    (position : List Int) (input : Value) (fuel : Nat) :
    Along S (Executor.run audience call level items position input fuel) := by
  refine tolerant.bind ?_ (fun _ => tolerant.pure _)
  exact Engine.run_along tolerant.toLasting (fun _ c _ => tolerant.check free call c)
    (fun id literal supplied place => tolerant.invoke free call id literal supplied place)
    (fun event v => tolerant.emit (fun h h' _ => free h h') heeds call event v) fuel level items position input

theorem start {audience : Audience} (heeds : audience.Heeds S) (call : Call) (input : Value) (fuel : Nat) :
    Along S (Executor.start audience call input fuel) := by
  refine tolerant.bind (tolerant.schema (fun _ _ _ => free _ _) _) (fun found => ?_)
  refine tolerant.bind (tolerant.any free _) (fun _ => tolerant.bind (tolerant.log _ _ _) (fun _ => ?_))
  exact tolerant.run free heeds call _ _ _ _ _

theorem resumeAt {audience : Audience} (heeds : audience.Heeds S) (call : Call) (items : Schema) (position : List Int)
    (input : Value) (fuel : Nat) : Along S (Executor.resumeAt audience call items position input fuel) := by
  refine tolerant.bind (tolerant.any free _) (fun name => ?_)
  split
  · exact tolerant.refuse _
  · exact tolerant.refuse _
  · exact tolerant.refuse _
  · exact tolerant.any free _
  · exact tolerant.bind (tolerant.log _ _ _) (fun _ => tolerant.run free heeds call _ _ _ _ _)

theorem resumeState {audience : Audience} (heeds : audience.Heeds S) (id : Value) {state : Job State}
    (read : Along S state) (input : Value) (listener : Option Nat) (fuel : Nat) :
    Along S (Executor.resumeState audience id state input listener fuel) :=
  tolerant.bind (tolerant.schema (fun _ _ _ => free _ _) _) (fun _ => tolerant.bind read (fun _ =>
    tolerant.resumeAt free heeds _ _ _ _ _))

theorem ofValue (v : Value) : Along S (State.ofValue v) := by
  unfold State.ofValue
  split
  · refine tolerant.bind tolerant.get (fun w => ?_)
    split
    · exact tolerant.bind (tolerant.any free _) (fun items =>
        tolerant.bind (tolerant.cursorsOf (fun _ _ _ => free _ _) _) (fun _ => tolerant.pure _))
    · exact tolerant.ofData (fun _ _ _ => free _ _) _
  · exact tolerant.ofData (fun _ _ _ => free _ _) _

/-! Registration. -/

theorem make (id handler input globals : Value) : Along S (Step.make id handler input globals) := by
  unfold Step.make
  extract_lets withId
  have handled : ∀ id, Along S (withId id) := by
    intro id
    unfold withId
    extract_lets withHandler
    have bound : ∀ handler, Along S (withHandler handler) := by
      intro handler
      refine tolerant.bind tolerant.get (fun w => ?_)
      exact tolerant.either (tolerant.any free _) (fun _ => tolerant.pure _) (tolerant.bind (tolerant.pure _) (fun _ => tolerant.pure _))
    split
    · exact tolerant.bind (tolerant.pure _) bound
    · refine tolerant.bind tolerant.get (fun w => ?_)
      exact tolerant.either (tolerant.pure _) bound (tolerant.bind (tolerant.refuse _) bound)
  split
  · exact tolerant.either (tolerant.refuse _) handled (tolerant.bind (tolerant.pure _) handled)
  · exact tolerant.bind (tolerant.any free _) (fun _ => tolerant.bind (tolerant.refuse _) handled)

theorem space (v : Value) : Along S (spaceOf v) := by
  refine tolerant.bind tolerant.get (fun w => ?_)
  exact tolerant.either (tolerant.any free _) (fun _ => tolerant.pure _) (tolerant.pure _)

theorem normalise (id items space : Value) : Along S (Workflow.normalise id items space) := by
  refine tolerant.bind (tolerant.space free _) (fun space => tolerant.bind tolerant.get (fun w => ?_))
  split
  · exact tolerant.any free _
  · split
    · exact tolerant.pure _
    · exact tolerant.bind (tolerant.any free _) (fun _ => tolerant.fail _)

omit free

theorem checkSteps (schema : Value) (ids : List (Path × String)) : Along S (Executor.checkSteps schema ids) := by
  induction ids with
  | nil => exact tolerant.pure _
  | cons entry rest ih =>
    refine tolerant.bind tolerant.get (fun w => ?_)
    exact tolerant.either (tolerant.fail _) (fun _ => ih) ih

theorem checkConditions (schema : Value) (conditions : List (Path × Condition)) :
    Along S (Executor.checkConditions schema conditions) := by
  induction conditions with
  | nil => exact tolerant.pure _
  | cons entry rest ih =>
    obtain ⟨path, text | f⟩ := entry
    · rw [Executor.checkConditions]
      refine tolerant.bind (Tolerant.attempt (tolerant.compile text)) (fun r => ?_)
      dsimp only
      split
      · exact ih
      · exact tolerant.bind (tolerant.fail _) (fun _ => ih)
      · exact tolerant.bind (tolerant.fail _) (fun _ => ih)
    · exact ih

end

end Tolerant

end Workflow
