import Workflow.Engine.Traversal

/-! What a traversal does to the world. Every condition that it checks and every step that it invokes is a
deed. A recording host notes its deeds and is otherwise the host that it records, so a traversal on the
recording host gives the deeds of the traversal on the host itself. -/

namespace Workflow.Engine
open Script (Value)

abbrev Answer := Except Fault (Except Halt Bool)

/-- Something that was asked of the world, at a place in the schema, what came of it, and the worlds before
and after. -/
inductive Deed (σ : Type) where
  | checked (role : Role) (condition : Condition) (place : List Int) (before : σ) (answer : Answer)
      (after : σ)
  | invoked (id : String) (literal supplied : Value) (place : List Int) (before : σ)
      (answer : Except Fault Outcome) (after : σ)

/-- What a deed is about, apart from what came of it. -/
inductive Query where
  | check (role : Role) (condition : Condition)
  | invoke (id : String) (literal : Value)

/-- The end of some work, in two parts. -/
def answered : Except Fault α → σ → EStateM.Result Fault σ α
  | .ok a, w => .ok a w
  | .error fault, w => .error fault w

@[simp] theorem answered_ok (a : α) (w : σ) : answered (.ok a) w = .ok a w := rfl

@[simp] theorem answered_error (fault : Fault) (w : σ) :
    answered (.error fault : Except Fault α) w = .error fault w := rfl

theorem exists_answered (r : EStateM.Result Fault σ α) : ∃ a w, r = answered a w := by
  cases r with
  | ok a w => exact ⟨.ok a, w, rfl⟩
  | error fault w => exact ⟨.error fault, w, rfl⟩

theorem answered_inj {a b : Except Fault α} {v w : σ} (same : answered a v = answered b w) :
    a = b ∧ v = w := by
  cases a <;> cases b <;> simp_all [answered]

/-- Whether some work comes to something that passes a test. -/
def passes {ε : Type} (test : α → σ → Bool) : EStateM.Result ε σ α → Bool
  | .ok a w => test a w
  | .error _ _ => false

theorem exists_of_passes {ε : Type} {test : α → σ → Bool} {r : EStateM.Result ε σ α} (passed : passes test r = true) :
    ∃ a w, r = .ok a w ∧ test a w = true := by
  cases r with
  | ok a w => exact ⟨a, w, rfl, passed⟩
  | error fault w => cases passed

namespace Deed

def query : Deed σ → Query
  | .checked role c _ _ _ _ => .check role c
  | .invoked id literal _ _ _ _ _ => .invoke id literal

def before : Deed σ → σ
  | .checked _ _ _ w _ _ => w
  | .invoked _ _ _ _ w _ _ => w

def after : Deed σ → σ
  | .checked _ _ _ _ _ w => w
  | .invoked _ _ _ _ _ _ w => w

/-- A deed belongs to a position. A test is checked at its loop, and its position lies behind the end of
the loop's body. -/
def At (cursors : List Int) : Deed σ → Prop
  | .checked .test _ place _ _ _ => place = cursors.dropLast
  | .checked _ _ place _ _ _ => place = cursors
  | .invoked _ _ _ place _ _ _ => place = cursors

/-- The step was invoked and asks for input, on the terms of a halt. -/
def Asks (halt : Halt) : Deed σ → Prop
  | .invoked _ _ _ _ _ (.ok (.awaits h)) _ => h = halt
  | _ => False

/-- A condition or a step failed in a way that can be retried. -/
def Breaks (halt : Halt) : Deed σ → Prop
  | .checked _ _ _ _ (.ok (.error h)) _ => h = halt
  | .invoked _ _ _ _ _ (.ok (.failed h)) _ => h = halt
  | _ => False

/-- A call comes to a halt on some terms. -/
def Halts (halt : Halt) (d : Deed σ) : Prop := d.Asks halt ∨ d.Breaks halt

/-- A condition or a step failed in a way that cannot be retried. -/
def Raises (fault : Fault) : Deed σ → Prop
  | .checked _ _ _ _ (.error raised) _ => raised = fault
  | .invoked _ _ _ _ _ (.error raised) _ => raised = fault
  | _ => False

/-- A deed was done by a host. -/
def Done (host : Host σ) : Deed σ → Prop
  | .checked role c place w answer w' => host.check role c place w = answered answer w'
  | .invoked id literal supplied place w answer w' => host.invoke id literal supplied place w = answered answer w'

end Deed

/-- The host that also notes what it is asked. -/
def Host.recorded (host : Host σ) : Host (σ × List (Deed σ)) where
  check role c place := fun (w, log) =>
    match host.check role c place w with
    | .ok answer w' => .ok answer (w', log ++ [.checked role c place w (.ok answer) w'])
    | .error fault w' => .error fault (w', log ++ [.checked role c place w (.error fault) w'])
  invoke id literal supplied place := fun (w, log) =>
    match host.invoke id literal supplied place w with
    | .ok outcome w' => .ok outcome (w', log ++ [.invoked id literal supplied place w (.ok outcome) w'])
    | .error fault w' => .error fault (w', log ++ [.invoked id literal supplied place w (.error fault) w'])
  emit event v := fun (w, log) =>
    match host.emit event v w with
    | .ok () w' => .ok () (w', log)
    | .error fault w' => .error fault (w', log)

section
variable (host : Host σ) (w : σ) (log : List (Deed σ))

theorem recorded_check {role c place w'} (answer : Answer)
    (found : host.check role c place w = answered answer w') :
    host.recorded.check role c place (w, log) =
      answered answer (w', log ++ [.checked role c place w answer w']) := by
  cases answer <;> simp_all [Host.recorded]

theorem recorded_invoke {id literal supplied place w'} (answer : Except Fault Outcome)
    (found : host.invoke id literal supplied place w = answered answer w') :
    host.recorded.invoke id literal supplied place (w, log) =
      answered answer (w', log ++ [.invoked id literal supplied place w answer w']) := by
  cases answer <;> simp_all [Host.recorded]

theorem recorded_emit {event v w'} (answer : Except Fault Unit)
    (found : host.emit event v w = answered answer w') :
    host.recorded.emit event v (w, log) = answered answer (w', log) := by
  cases answer <;> simp_all [Host.recorded]

end

/-! Two hosts that agree make traversals agree. -/

/-- Two pieces of work end alike from related worlds, and in related worlds. -/
def Agree (R : σ → τ → Prop) (x : Work σ α) (y : Work τ α) : Prop :=
  ∀ v w, R v w → ∃ a v' w', x v = answered a v' ∧ y w = answered a w' ∧ R v' w'

structure HostsAgree (R : σ → τ → Prop) (first : Host σ) (second : Host τ) : Prop where
  check : ∀ role c place, Agree R (first.check role c place) (second.check role c place)
  invoke : ∀ id literal supplied place,
    Agree R (first.invoke id literal supplied place) (second.invoke id literal supplied place)
  emit : ∀ event v, Agree R (first.emit event v) (second.emit event v)

namespace Agree
variable {R : σ → τ → Prop}

theorem pure (a : α) : Agree R (Pure.pure a) (Pure.pure a) :=
  fun v w related => ⟨.ok a, v, w, rfl, rfl, related⟩

theorem throw (fault : Fault) : Agree R (throwThe Fault fault : Work σ α) (throwThe Fault fault) :=
  fun v w related => ⟨.error fault, v, w, rfl, rfl, related⟩

end Agree

/-- Two pieces of work end alike from related worlds, and in related worlds, unless something happens in the first. Once it
has happened, it stays so. -/
structure AgreeUnless (Q : σ → Prop) (R : σ → τ → Prop) (x : Work σ α) (y : Work τ α) : Prop where
  lasts : ∀ v, Q v → ∃ a v', x v = answered a v' ∧ Q v'
  agrees : ∀ v w, R v w → (∃ a v' w', x v = answered a v' ∧ y w = answered a w' ∧ R v' w') ∨ ∃ a v', x v = answered a v' ∧ Q v'

structure HostsAgreeUnless (Q : σ → Prop) (R : σ → τ → Prop) (first : Host σ) (second : Host τ) : Prop where
  check : ∀ role c place, AgreeUnless Q R (first.check role c place) (second.check role c place)
  invoke : ∀ id literal supplied place,
    AgreeUnless Q R (first.invoke id literal supplied place) (second.invoke id literal supplied place)
  emit : ∀ event v, AgreeUnless Q R (first.emit event v) (second.emit event v)

namespace AgreeUnless
variable {Q : σ → Prop} {R : σ → τ → Prop}

theorem pure (a : α) : AgreeUnless Q R (Pure.pure a) (Pure.pure a) :=
  ⟨fun v now => ⟨.ok a, v, rfl, now⟩, fun v w related => .inl (Agree.pure a v w related)⟩

theorem throw (fault : Fault) : AgreeUnless Q R (throwThe Fault fault : Work σ α) (throwThe Fault fault) :=
  ⟨fun v now => ⟨.error fault, v, rfl, now⟩, fun v w related => .inl (Agree.throw fault v w related)⟩

theorem lasting_bind {x : Work σ α} {f : α → Work σ β} {v v' : σ} {a : Except Fault α} (ran : x v = answered a v') (now : Q v')
    (rest : ∀ a v, Q v → ∃ b v', f a v = answered b v' ∧ Q v') : ∃ b v', (x >>= f) v = answered b v' ∧ Q v' := by
  cases a with
  | error fault => exact ⟨.error fault, v', by simp [Bind.bind, EStateM.bind, ran], now⟩
  | ok a =>
    obtain ⟨b, v₂, ran₂, now⟩ := rest a v' now
    exact ⟨b, v₂, by simpa [Bind.bind, EStateM.bind, ran] using ran₂, now⟩

theorem bind {x : Work σ α} {y : Work τ α} {f : α → Work σ β} {g : α → Work τ β} (first : AgreeUnless Q R x y)
    (rest : ∀ a, AgreeUnless Q R (f a) (g a)) : AgreeUnless Q R (x >>= f) (y >>= g) where
  lasts v now := by
    obtain ⟨a, v', ran, now⟩ := first.lasts v now
    exact lasting_bind ran now (fun a => (rest a).lasts)
  agrees v w related := by
    obtain ⟨a, v', w', left, right, related'⟩ | ⟨a, v', ran, now⟩ := first.agrees v w related
    · cases a with
      | error fault =>
        exact .inl ⟨.error fault, v', w', by simp [Bind.bind, EStateM.bind, left], by simp [Bind.bind, EStateM.bind, right],
          related'⟩
      | ok a =>
        have left : (x >>= f) v = f a v' := by simp [Bind.bind, EStateM.bind, left]
        have right : (y >>= g) w = g a w' := by simp [Bind.bind, EStateM.bind, right]
        rw [left, right]
        exact (rest a).agrees v' w' related'
    · exact .inr (lasting_bind ran now (fun a => (rest a).lasts))

end AgreeUnless

namespace Agree
variable {R : σ → τ → Prop} {x : Work σ α} {y : Work τ α}

/-- To agree is to agree unless something happens that never happens. -/
theorem iff_unless : Agree R x y ↔ AgreeUnless (fun _ => False) R x y := by
  constructor
  · exact fun agree => ⟨fun _ => False.elim, fun v w related => .inl (agree v w related)⟩
  · intro agree v w related
    obtain same | ⟨_, _, _, impossible⟩ := agree.agrees v w related
    · exact same
    · exact impossible.elim

theorem bind {f : α → Work σ β} {g : α → Work τ β} (first : Agree R x y) (rest : ∀ a, Agree R (f a) (g a)) :
    Agree R (x >>= f) (y >>= g) :=
  iff_unless.mpr ((iff_unless.mp first).bind (fun a => iff_unless.mp (rest a)))

end Agree

section
variable {Q : σ → Prop} {R : σ → τ → Prop}

theorem walkRow_agree {size : Nat} {walk : Int → Nat → List Int → Progress → Work σ Verdict}
    {stroll : Int → Nat → List Int → Progress → Work τ Verdict}
    (inside : ∀ cursor skip deeper p, AgreeUnless Q R (walk cursor skip deeper p) (stroll cursor skip deeper p))
    (start : Int) (deeper : List Int) (p : Progress) :
    AgreeUnless Q R (walkRow size walk start deeper p) (walkRow size stroll start deeper p) := by
  unfold walkRow
  split
  · refine (inside _ _ _ _).bind ?_
    rintro (p | r)
    · exact inside _ _ _ _
    · exact .pure _
  · exact inside _ _ _ _

variable {first : Host σ} {second : Host τ} (agree : HostsAgreeUnless Q R first second)
include agree

theorem check_agree (here : List Int) (stepId : String) (role : Role) (c : Condition) :
    AgreeUnless Q R (check first here stepId role c) (check second here stepId role c) := by
  refine (agree.check role c here).bind ?_
  rintro (halt | passed)
  · exact .pure _
  · exact (agree.emit _ _).bind (fun _ => .pure _)

theorem whenOpen_agree (here : List Int) (p : Progress) (gate : Option Condition)
    {x : Work σ Verdict} {y : Work τ Verdict} (inside : AgreeUnless Q R x y) :
    AgreeUnless Q R (whenOpen first here p gate x) (whenOpen second here p gate y) := by
  cases gate with
  | none => exact inside
  | some c =>
    refine (check_agree agree here p.stepId .gate c).bind ?_
    rintro (halt | passed)
    · exact .pure _
    · cases passed
      · exact .pure _
      · exact inside

theorem runMarker_agree (here : List Int) (p : Progress) (signal : Signal) (test : Condition) :
    AgreeUnless Q R (runMarker first here p signal test) (runMarker second here p signal test) := by
  refine (check_agree agree here p.stepId (.marker signal) test).bind ?_
  rintro (halt | passed)
  · exact .pure _
  · cases passed <;> exact .pure _

theorem runStep_agree (here : List Int) (p : Progress) (id : String) (literal : Value) :
    AgreeUnless Q R (runStep first here p id literal) (runStep second here p id literal) := by
  refine (agree.invoke id literal p.supplied here).bind ?_
  rintro (_ | halt | halt) <;> exact (agree.emit _ _).bind (fun _ => .pure _)

theorem runRow_agree (level : Level) (outer resume : List Int) (supplied : Value) (size : Nat)
    {walk : Int → Nat → List Int → Progress → Work σ Verdict}
    {stroll : Int → Nat → List Int → Progress → Work τ Verdict}
    (inside : ∀ cursor skip deeper p, AgreeUnless Q R (walk cursor skip deeper p) (stroll cursor skip deeper p)) :
    AgreeUnless Q R (runRow first level outer resume supplied size walk)
      (runRow second level outer resume supplied size stroll) := by
  refine (agree.emit _ _).bind (fun _ => (walkRow_agree inside _ _ _).bind (fun verdict => ?_))
  exact (agree.emit _ _).bind (fun _ => .pure _)

theorem testRound_agree (here : List Int) (stepId : String) (test : Condition) (resume : List Int) :
    AgreeUnless Q R (testRound first here stepId test resume) (testRound second here stepId test resume) := by
  unfold testRound
  split
  · exact check_agree agree here stepId .test test
  · exact .pure _

theorem iterate_agree (here : List Int) (test : Condition) (size : Nat)
    {body : List Int → Value → Work σ Report} {other : List Int → Value → Work τ Report}
    (inside : ∀ resume supplied, AgreeUnless Q R (body resume supplied) (other resume supplied))
    (fuel : Nat) (resume : List Int) (p : Progress) :
    AgreeUnless Q R (iterate first here test size body fuel resume p)
      (iterate second here test size other fuel resume p) := by
  induction fuel generalizing resume p with
  | zero =>
    simp only [iterate]
    exact .throw _
  | succ fuel ih =>
    simp only [iterate]
    refine (testRound_agree agree here p.stepId test resume).bind ?_
    rintro (halt | passed)
    · exact .pure _
    cases passed with
    | false => exact .pure _
    | true =>
      refine (inside resume p.supplied).bind ?_
      rintro ⟨stepId, ending⟩
      cases ending with
      | passed => exact ih _ _
      | halted halt cursors => exact .pure _
      | signalled signal =>
        cases signal with
        | breakLoop => exact .pure _
        | continueLoop => exact ih _ _

omit agree

mutual

theorem runItem_agree (agree : HostsAgreeUnless Q R first second) (fuel : Nat) (here deeper : List Int)
    (p : Progress) :
    (i : Item) → AgreeUnless Q R (runItem first fuel here deeper p i) (runItem second fuel here deeper p i)
  | .marker signal test => by
    simp only [runItem]
    exact runMarker_agree agree here p signal test
  | .step id literal gate => by
    simp only [runItem]
    exact whenOpen_agree agree here p _ (runStep_agree agree here p id literal)
  | .block items gate => by
    simp only [runItem]
    refine whenOpen_agree agree here p _ (AgreeUnless.bind ?_ (fun _ => .pure _))
    exact runRow_agree agree _ _ _ _ _ (fun cursor skip inner q =>
      runItems_agree agree fuel here cursor skip inner q items)
  | .loop test items gate => by
    simp only [runItem]
    refine whenOpen_agree agree here p _ (iterate_agree agree _ _ _ (fun resume supplied => ?_) _ _ _)
    exact runRow_agree agree _ _ _ _ _ (fun cursor skip inner q =>
      runItems_agree agree fuel here cursor skip inner q items)

theorem runItems_agree (agree : HostsAgreeUnless Q R first second) (fuel : Nat) (outer : List Int)
    (cursor : Int) (skip : Nat) (deeper : List Int) (p : Progress) : (items : List Item) →
    AgreeUnless Q R (runItems first fuel outer cursor skip deeper p items)
      (runItems second fuel outer cursor skip deeper p items)
  | [] => by
    simp only [runItems]
    exact .pure _
  | item :: rest => by
    cases skip with
    | succ skip =>
      simp only [runItems]
      exact runItems_agree agree fuel outer cursor skip deeper p rest
    | zero =>
      simp only [runItems]
      refine (runItem_agree agree fuel (outer ++ [cursor]) deeper p item).bind ?_
      rintro (q | r)
      · exact runItems_agree agree fuel outer (cursor + 1) 0 [] q rest
      · exact .pure _

end

theorem run_agree_unless (agree : HostsAgreeUnless Q R first second) (fuel : Nat) (level : Level) (schema : Schema)
    (position : List Int) (supplied : Value) :
    AgreeUnless Q R (run first fuel level schema position supplied) (run second fuel level schema position supplied) :=
  runRow_agree agree _ _ _ _ _ (fun cursor skip deeper p =>
    runItems_agree agree fuel [] cursor skip deeper p schema)

theorem run_agree (agree : HostsAgree R first second) (fuel : Nat) (level : Level) (schema : Schema) (position : List Int)
    (supplied : Value) :
    Agree R (run first fuel level schema position supplied)
      (run second fuel level schema position supplied) := by
  have always : HostsAgreeUnless (fun _ => False) R first second :=
    ⟨fun role c place => Agree.iff_unless.mp (agree.check role c place),
      fun id literal supplied place => Agree.iff_unless.mp (agree.invoke id literal supplied place),
      fun event v => Agree.iff_unless.mp (agree.emit event v)⟩
  exact Agree.iff_unless.mpr (run_agree_unless always fuel level schema position supplied)

end

theorem recorded_agrees (host : Host σ) :
    HostsAgree (fun (v : σ × List (Deed σ)) w => v.1 = w) host.recorded host where
  check role c place := by
    rintro ⟨w, log⟩ _ rfl
    obtain ⟨a, w', found⟩ := exists_answered (host.check role c place w)
    exact ⟨a, _, w', recorded_check host w log a found, found, rfl⟩
  invoke id literal supplied cursors := by
    rintro ⟨w, log⟩ _ rfl
    obtain ⟨a, w', found⟩ := exists_answered (host.invoke id literal supplied cursors w)
    exact ⟨a, _, w', recorded_invoke host w log a found, found, rfl⟩
  emit event v := by
    rintro ⟨w, log⟩ _ rfl
    obtain ⟨a, w', found⟩ := exists_answered (host.emit event v w)
    exact ⟨a, _, w', recorded_emit host w log a found, found, rfl⟩

def noted : EStateM.Result Fault (σ × List (Deed σ)) α → List (Deed σ)
  | .ok _ s => s.2
  | .error _ s => s.2

def deeds (host : Host σ) (fuel : Nat) (level : Level) (schema : Schema) (position : List Int)
    (supplied : Value) (w : σ) : List (Deed σ) :=
  noted (run host.recorded fuel level schema position supplied (w, []))

/-- The recorded traversal is the traversal, with its deeds. -/
theorem run_recorded (host : Host σ) (fuel : Nat) (level : Level) (schema : Schema)
    (position : List Int) (supplied : Value) (w : σ) :
    ∃ a w', run host fuel level schema position supplied w = answered a w' ∧
      run host.recorded fuel level schema position supplied (w, []) =
        answered a (w', deeds host fuel level schema position supplied w) := by
  obtain ⟨a, ⟨w', log⟩, _, left, right, rfl⟩ :=
    run_agree (recorded_agrees host) fuel level schema position supplied (w, []) w rfl
  refine ⟨a, w', right, ?_⟩
  have noting : deeds host fuel level schema position supplied w = log := by
    rw [deeds, left]
    cases a <;> rfl
  rw [noting]
  exact left

end Workflow.Engine
