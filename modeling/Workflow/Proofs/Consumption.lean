import Mathlib.Data.List.TakeWhile
import Workflow.Proofs.Inputs
import Workflow.Proofs.Traces

/-! Where the input of a call goes. Markers and items that are skipped leave it alone. The first step that is invoked takes
it, unless a block has been run before, which takes it as well, also if none of its steps is invoked. -/

namespace Workflow
open Script (Act Value)
open Engine (Outcome)

namespace Engine

namespace Moment

def invokes : Moment σ → Bool
  | .done (.invoked _ _ _ _ _ _ _) => true
  | _ => false

/-- A block has been run: a row inside comes to its end, or a loop is not entered. -/
def endsBlock : Moment σ → Bool
  | .told (.ended .nested) _ _ _ => true
  | .told (.checked .test _ false) _ _ _ => true
  | _ => false

def consumes (m : Moment σ) : Bool := m.invokes || m.endsBlock

/-- If a step is invoked, it gets just some input. -/
def Takes (supplied : Value) : Moment σ → Prop
  | .done (.invoked _ _ given _ _ _ _) => given = supplied
  | _ => True

end Moment

/-- What some moments leave of an input. -/
def leftOver (supplied : Value) (ms : List (Moment σ)) : Value := if ms.any Moment.consumes then .nothing else supplied

/-- Each step that is invoked gets what the moments before leave of an input. -/
def Fed (supplied : Value) : List (Moment σ) → Prop
  | [] => True
  | m :: ms => m.Takes supplied ∧ Fed (leftOver supplied [m]) ms

section
variable {supplied : Value} {ms ns : List (Moment σ)}

theorem leftOver_append (supplied : Value) (ms ns : List (Moment σ)) :
    leftOver supplied (ms ++ ns) = leftOver (leftOver supplied ms) ns := by
  by_cases consumed : ms.any Moment.consumes = true
  · simp only [leftOver, List.any_append, consumed, Bool.true_or, if_true, ite_self]
  · simp only [leftOver, List.any_append, Bool.eq_false_iff.mpr consumed, Bool.false_or, Bool.false_eq_true, if_false]

theorem leftOver_of_mem {m : Moment σ} (member : m ∈ ms) (consumes : m.consumes = true) : leftOver supplied ms = .nothing :=
  if_pos (List.any_eq_true.mpr ⟨m, member, consumes⟩)

theorem fed_append : Fed supplied (ms ++ ns) ↔ Fed supplied ms ∧ Fed (leftOver supplied ms) ns := by
  induction ms generalizing supplied with
  | nil => exact ⟨fun rest => ⟨trivial, rest⟩, And.right⟩
  | cons m ms ih =>
    have left : leftOver supplied (m :: ms) = leftOver (leftOver supplied [m]) ms := leftOver_append supplied [m] ms
    rw [List.cons_append, Fed, Fed, ih, left, and_assoc]

end

section
variable {here : List Int} {stepId : String} {role : Role} {c : Condition} {answer : Answer} {ms ns : List (Moment σ)}
variable {supplied : Value}

theorem CheckMoments.fed (check : CheckMoments here stepId role c ms answer) : Fed supplied ms := by
  cases check with
  | told => exact ⟨trivial, trivial, trivial⟩
  | missed => exact ⟨trivial, trivial, trivial⟩
  | stopped => exact ⟨trivial, trivial⟩

/-- A condition that is checked leaves the input alone, unless it ends a loop. -/
theorem CheckMoments.leftOver (check : CheckMoments here stepId role c ms answer)
    (goes : role = .test → answer ≠ .ok (.ok false)) : leftOver supplied ms = supplied := by
  cases check with
  | @told w passed =>
    cases role with
    | gate => rfl
    | marker signal => rfl
    | test =>
      cases passed with
      | true => rfl
      | false => exact absurd rfl (goes rfl)
  | missed => rfl
  | stopped => rfl

theorem CheckMoments.ends_loop (check : CheckMoments here stepId .test c ms (.ok (.ok false))) :
    Engine.leftOver supplied ms = .nothing := by
  cases check with
  | told => rfl
  | stopped stops => exact absurd rfl (stops false)

theorem TestMoments.fed {resume : List Int} (tested : TestMoments here stepId c resume ms) : Fed supplied ms := by
  cases tested with
  | checked check => exact check.fed
  | resumed => trivial

theorem TestMoments.leftOver {resume : List Int} (tested : TestMoments here stepId c resume ms) :
    leftOver supplied ms = supplied := by
  cases tested with
  | checked check => exact check.leftOver (fun _ => nofun)
  | resumed => rfl

theorem StepMoments.fed {id : String} {literal : Value} {e : End} (step : StepMoments here id literal supplied ms e) :
    Fed supplied ms := by
  cases step with
  | told => exact ⟨rfl, trivial, trivial⟩
  | missed => exact ⟨rfl, trivial, trivial⟩
  | failed => exact ⟨rfl, trivial⟩

theorem StepMoments.leftOver {id : String} {literal : Value} {e : End} (step : StepMoments here id literal supplied ms e) :
    leftOver supplied ms = .nothing := by
  cases step <;> rfl

theorem CloseMoments.fed {level : Level} {e f : End} (closes : CloseMoments level here e ms f) : Fed supplied ms := by
  cases closes with
  | told => exact ⟨trivial, trivial⟩
  | missed => exact ⟨trivial, trivial⟩
  | failed => trivial

/-- The end of a row that does not halt is told of as its end. -/
theorem Verdict.closing_ends {v : Verdict} (runs : End.Runs (.ok v)) (level : Level) :
    (v.report.closing level here).1 = .ended level := by
  obtain p | ⟨stepId, ending⟩ := v
  · rfl
  · cases ending with
    | passed => rfl
    | signalled => rfl
    | halted => exact runs.elim

/-- A row inside that comes to its end leaves nothing of the input. -/
theorem Chronicle.leftOver_body {resume : List Int} {given : Value} {items : List Item} {e : End}
    (body : Chronicle here (.body .nested resume given items) ms e) (runs : e.Runs) : leftOver supplied ms = .nothing := by
  cases body with
  | body walk closes =>
    cases closes with
    | told =>
      apply leftOver_of_mem (List.mem_cons_of_mem _ (List.mem_append_right _ List.mem_cons_self))
      rw [Verdict.closing_ends runs]
      rfl
    | missed => exact runs.elim
    | failed => exact runs.elim
  | body_missed => exact runs.elim

end

/-- A whole row. What it hands on is up to the block around it. -/
def Part.isBody : Part → Bool
  | .body _ _ _ _ => true
  | _ => false

/-- A part feeds its steps with its input, and hands on what is left of it. -/
structure Feeds (t : Part) (ms : List (Moment σ)) (e : End) : Prop where
  fed : Fed t.supplied ms
  onward : ∀ q, e = .ok (.onward q) → t.isBody = false → q.supplied = leftOver t.supplied ms

theorem Feeds.append {t u v : Part} {ms ns : List (Moment σ)} {q : Progress} {e : End} (first : Feeds t ms (.ok (.onward q)))
    (rest : Feeds u ns e) (part : t.isBody = false) (next : u.isBody = false) (hands : u.supplied = q.supplied)
    (begins : v.supplied = t.supplied) : Feeds v (ms ++ ns) e := by
  have same : u.supplied = leftOver v.supplied ms := by rw [hands, begins, first.onward q rfl part]
  constructor
  · rw [fed_append, ← same, begins]
    exact ⟨first.fed, rest.fed⟩
  · intro r ends _
    rw [rest.onward r ends next, same, leftOver_append]

/-- Each step of a part gets what is left of the input of the part by then. -/
theorem Chronicle.feeds {here : List Int} {t : Part} {ms : List (Moment σ)} {e : End} (chronicle : Chronicle here t ms e) :
    Feeds t ms e := by
  induction chronicle with
  | row_end => exact ⟨trivial, fun q same _ => by cases same; rfl⟩
  | row_onward first rest ihFirst ihRest => exact ihFirst.append ihRest rfl rfl rfl rfl
  | row_leave first ih => exact ⟨ih.fed, nofun⟩
  | row_failed first ih => exact ⟨ih.fed, nofun⟩
  | ahead ahead row ih => exact ⟨ih.fed, fun q same _ => ih.onward q same rfl⟩
  | back back row again ihRow ihAgain => exact ihRow.append ihAgain rfl rfl rfl rfl
  | back_end back row ends ih => exact ⟨ih.fed, fun q same _ => absurd same (ends q)⟩
  | free free inside ih => exact ⟨ih.fed, fun q same _ => ih.onward q same rfl⟩
  | @opened here p i c ms ns e gated gate inside ih =>
    have same : leftOver p.supplied ms = p.supplied := gate.leftOver nofun
    constructor
    · exact fed_append.mpr ⟨gate.fed, by rw [Part.supplied, same]; exact ih.fed⟩
    · intro q ends _
      rw [leftOver_append, Part.supplied, same]
      exact ih.onward q ends rfl
  | @shut here p i c ms answer e gated gate shut =>
    refine ⟨gate.fed, fun q ends _ => ?_⟩
    rw [gate.leftOver nofun]
    subst ends
    rcases answer with fault | halt | _ | _ <;> cases shut
    rfl
  | @marker here deeper p signal test ms answer check =>
    refine ⟨check.fed, fun q ends _ => ?_⟩
    rw [check.leftOver nofun]
    rcases answer with fault | halt | _ | _ <;> cases ends
    rfl
  | step step =>
    refine ⟨step.fed, fun q ends _ => ?_⟩
    have left := step.left
    rw [ends] at left
    exact left.trans step.leftOver.symm
  | @block here deeper p items gate ms e body ih =>
    refine ⟨ih.fed, fun q ends _ => ?_⟩
    have left := End.left_ofBlock (p := p) e
    have runs : e.Runs := End.runs_ofBlock (p := p) (by rw [ends]; trivial)
    rw [ends] at left
    rw [body.leftOver_body runs]
    exact left
  | loop loop ih => exact ⟨ih.fed, fun q same _ => ih.onward q same rfl⟩
  | body walk closes ih => exact ⟨⟨trivial, fed_append.mpr ⟨ih.fed, closes.fed⟩⟩, nofun⟩
  | body_missed => exact ⟨⟨trivial, trivial⟩, nofun⟩
  | spent => exact ⟨trivial, nofun⟩
  | @tested here test p items ms answer e check ends =>
    refine ⟨check.fed, fun q same _ => ?_⟩
    subst same
    rcases answer with fault | halt | _ | _ <;> cases ends
    exact check.ends_loop.symm
  | round tested body again rest ihBody ihRest =>
    have nothing := End.again?_supplied again
    have runs := End.runs_again again
    constructor
    · rw [fed_append, fed_append, tested.leftOver, body.leftOver_body runs, ← nothing]
      exact ⟨tested.fed, ihBody.fed, ihRest.fed⟩
    · intro r ends _
      rw [leftOver_append, leftOver_append, tested.leftOver, body.leftOver_body runs, ← nothing]
      exact ihRest.onward r ends rfl
  | @round_end here test resume p items ms ns e tested body ends ih =>
    constructor
    · rw [fed_append, tested.leftOver]
      exact ⟨tested.fed, ih.fed⟩
    · intro q same _
      have left := End.left_ofLoop (p := p) e
      have runs : e.Runs := End.runs_ofLoop (p := p) (by rw [same]; trivial)
      rw [same] at left
      rw [leftOver_append, body.leftOver_body runs]
      exact left

theorem leftOver_of_uninvoked {supplied : Value} {ms : List (Moment σ)} (uninvoked : ∀ m ∈ ms, m.invokes = false) :
    leftOver supplied ms = if ms.any Moment.endsBlock then .nothing else supplied := by
  have same : ms.any Moment.consumes = ms.any Moment.endsBlock := by
    induction ms with
    | nil => rfl
    | cons m ms ih =>
      have first := uninvoked m List.mem_cons_self
      rw [List.any_cons, List.any_cons, ih (fun n later => uninvoked n (List.mem_cons_of_mem m later)), Moment.consumes, first,
        Bool.false_or]
  rw [leftOver, same]

end Engine

theorem mergeInput_ok (literal supplied : Value) (h : Script.Heap) : ∃ merged h', mergeInput literal supplied h = .ok merged h' := by
  unfold mergeInput
  split
  · exact ⟨_, _, rfl⟩
  · exact ⟨_, _, rfl⟩
  · next a b =>
    simp only [Bind.bind, EStateM.bind, Act.object]
    cases h.object a with
    | dict declared => cases h.object b <;> exact ⟨_, _, rfl⟩
    | _ => exact ⟨_, _, rfl⟩
  · exact ⟨_, _, rfl⟩

/-- A step that is known is run on its literal input merged with what is supplied. -/
theorem Call.invoke_merged (call : Call) {id : String} {step : Step} (literal supplied : Value) (place : List Int) {w : World}
    (known : w.registry.step? id = some step) :
    ∃ merged w₁, Job.act (mergeInput literal supplied) w = .ok merged w₁ ∧
      call.invoke id literal supplied place w = call.invokeOn id merged place w₁ := by
  obtain ⟨merged, h, merges⟩ := mergeInput_ok literal supplied w.heap
  have merges : Job.act (mergeInput literal supplied) w = .ok merged { w with heap := h } := by simp only [Job.act, merges]
  have finds (w₁ : World) (same : w₁.registry = w.registry) : Executor.step id w₁ = .ok step w₁ := by
    simp only [Executor.step, Bind.bind, EStateM.bind, Script.get_result, same, known]
    rfl
  have first : call.invoke id literal supplied place w = _ := Engine.Work.ok_bind (finds w rfl)
  have onward : call.invokeOn id merged place { w with heap := h } = _ := Engine.Work.ok_bind (finds { w with heap := h } rfl)
  exact ⟨merged, _, merges, (first.trans (Engine.Work.ok_bind merges)).trans onward.symm⟩

namespace Request
open Engine (deedsOf)

/-- The first step that a call invokes takes the input of the call, whatever markers and skipped items come before. Only if
a block has been run by then, nothing is left of the input, and the step is run on its literal input alone. -/
theorem first_takes_input (audience : Audience) (input : Value) (fuel : Nat) (r : Request) (w : World)
    {before after : List (Engine.Moment World)} {id : String} {literal supplied : Value} {place : List Int} {v v' : World}
    {answer : Except Fault Outcome}
    (course : r.moments audience input fuel w = before ++ .done (.invoked id literal supplied place v answer v') :: after)
    (first : ∀ m ∈ before, m.invokes = false) :
    supplied = (if before.any Engine.Moment.endsBlock then .nothing else input) ∧
    ∃ b w₁ gate, r.opening w = .ok b w₁ ∧ Schema.find? b.items place = some (.step id literal gate) ∧
      b.call.invoke id literal supplied place v = Engine.answered answer v' ∧
      ∀ step, v.registry.step? id = some step → ∃ merged v₁, Job.act (mergeInput literal supplied) v = .ok merged v₁ ∧
        b.call.invokeOn id merged place v₁ = Engine.answered answer v' := by
  cases begun : r.opening w with
  | error fault w₁ =>
    rw [moments, begun] at course
    cases before <;> cases course
  | ok b w₁ =>
    obtain ⟨e, _, chronicle, -, -⟩ := chronicled audience input fuel begun
    have fed := chronicle.feeds.fed
    rw [course, Engine.fed_append] at fed
    have taken : supplied = Engine.leftOver input before := fed.2.1
    rw [Engine.leftOver_of_uninvoked first] at taken
    have member : .invoked id literal supplied place v answer v' ∈ deedsOf (r.moments audience input fuel w) := by
      rw [course, Engine.deedsOf_append]
      exact List.mem_append_right _ List.mem_cons_self
    obtain ⟨i, found, poses⟩ := placed audience input fuel r w begun _ member
    have ran := done begun _ member
    cases poses with
    | step =>
      refine ⟨taken, b, w₁, _, rfl, found, ran, fun step known => ?_⟩
      obtain ⟨merged, v₁, merges, same⟩ := b.call.invoke_merged literal supplied place known
      exact ⟨merged, v₁, merges, same.symm.trans ran⟩

end Request

/-- A step that is never run, alone in a block, and behind the block the step again. -/
def Schema.skipping : Schema := [.block [.step "take" .nothing (some (.source "False"))] none, .step "take" .nothing none]

/-- A step that is never run, and the step again. -/
def Schema.passing : Schema := [.step "take" .nothing (some (.source "False")), .step "take" .nothing none]

def World.taking (items : Schema) : World :=
  { registry := { steps := [{ id := "take", handler := .source "input" }]
                  schemas := [{ id := .str "take", items, space := .nothing }] } }

def Call.taking : Call := { schema := .str "take", context := .nothing }

/-- Whether a step at some place is the first one to be invoked, once the moments before pass a test. -/
def Engine.isFirstAt (place : List Int) (test : List (Engine.Moment World) → Value → Bool) (ms : List (Engine.Moment World)) : Bool :=
  match ms.dropWhile (fun m => !m.invokes) with
  | .done (.invoked _ _ supplied there _ _ _) :: _ => there == place && test (ms.takeWhile (fun m => !m.invokes)) supplied
  | _ => false

theorem Engine.first_of_isFirstAt {place : List Int} {test : List (Engine.Moment World) → Value → Bool} {ms : List (Engine.Moment World)}
    (first : isFirstAt place test ms = true) :
    ∃ before id literal supplied w answer w' after, ms = before ++ .done (.invoked id literal supplied place w answer w') :: after ∧
      (∀ m ∈ before, m.invokes = false) ∧ test before supplied = true := by
  unfold isFirstAt at first
  split at first
  · next id literal supplied there w answer w' after split =>
    obtain ⟨same, tested⟩ := Bool.and_eq_true_iff.mp first
    obtain rfl := beq_iff_eq.mp same
    refine ⟨_, id, literal, supplied, w, answer, w', after, ?_, fun m early => ?_, tested⟩
    · rw [← split, List.takeWhile_append_dropWhile]
    · simpa using List.mem_takeWhile_imp early
  · cases first

/-- A block in which nothing is invoked takes the input away from the step behind it. -/
theorem Request.skipped_block_takes_input : ∃ before id literal v answer v' after,
    (Request.start .taking).moments .silent (.int 5) 1 (.taking .skipping) =
      before ++ .done (.invoked id literal .nothing [1] v answer v') :: after ∧ ∀ m ∈ before, m.invokes = false := by
  have plays : Engine.isFirstAt [1] (fun _ supplied => !isPresent supplied)
      ((Request.start .taking).moments .silent (.int 5) 1 (.taking .skipping)) = true := by decide +kernel
  obtain ⟨before, id, literal, supplied, v, answer, v', after, course, uninvoked, lost⟩ := Engine.first_of_isFirstAt plays
  have nothing : supplied = .nothing := by
    cases supplied with
    | nothing => rfl
    | _ => cases lost
  rw [nothing] at course
  exact ⟨before, id, literal, v, answer, v', after, course, uninvoked⟩

/-- A step that is skipped leaves the input to the next one. -/
theorem Request.skipped_step_leaves_input : ∃ before id literal v answer v' after,
    (Request.start .taking).moments .silent (.int 5) 1 (.taking .passing) =
      before ++ .done (.invoked id literal (.int 5) [1] v answer v') :: after ∧ (∀ m ∈ before, m.invokes = false) ∧
    ∃ b w₁ gate, (Request.start .taking).opening (.taking .passing) = .ok b w₁ ∧
      Schema.find? b.items [1] = some (.step id literal gate) ∧
      b.call.invoke id literal (.int 5) [1] v = Engine.answered answer v' := by
  have plays : Engine.isFirstAt [1] (fun before _ => !before.any Engine.Moment.endsBlock)
      ((Request.start .taking).moments .silent (.int 5) 1 (.taking .passing)) = true := by decide +kernel
  obtain ⟨before, id, literal, supplied, v, answer, v', after, course, uninvoked, unblocked⟩ := Engine.first_of_isFirstAt plays
  obtain ⟨taken, b, w₁, gate, begun, found, ran, -⟩ := first_takes_input .silent (.int 5) 1 _ _ course uninvoked
  rw [Bool.not_eq_true'] at unblocked
  rw [unblocked, if_neg Bool.false_ne_true] at taken
  cases taken
  exact ⟨before, id, literal, v, answer, v', after, course, uninvoked, b, w₁, gate, begun, found, ran⟩

end Workflow
