import Workflow.Proofs.Calls
import Workflow.Proofs.Places

/-! The input of a call. The first step that the call invokes may take it, and every step after that gets its literal
input and nothing else. -/

namespace Workflow
open Script (Act Value)
open Engine (Outcome)

namespace Engine

/-- What a deed supplies to a step. -/
def Deed.supplied? : Deed σ → Option Value
  | .checked _ _ _ _ _ _ => none
  | .invoked _ _ supplied _ _ _ _ => some supplied

/-- What is supplied to the steps that are invoked, one after the other. -/
def supplies (ds : List (Deed σ)) : List Value := ds.filterMap Deed.supplied?

@[simp] theorem supplies_nil : supplies ([] : List (Deed σ)) = [] := rfl

@[simp] theorem supplies_append (ds es : List (Deed σ)) : supplies (ds ++ es) = supplies ds ++ supplies es :=
  List.filterMap_append

@[simp] theorem supplies_checked {role c place answer} (w w' : σ) :
    supplies [.checked role c place w answer w'] = [] := rfl

@[simp] theorem supplies_invoked {id literal supplied place answer} (w w' : σ) :
    supplies [.invoked id literal supplied place w answer w'] = [supplied] := rfl

/-- Some input is spent on the first step, if there is one. What is left of it after all the steps is the input itself or
nothing. -/
def Spends (supplied : Value) : List Value → (left : Value) → Prop
  | [], left => left = supplied ∨ left = .nothing
  | first :: rest, left => (first = supplied ∨ first = .nothing) ∧ (∀ v ∈ rest, v = .nothing) ∧ left = .nothing

namespace Spends
variable {supplied middle left : Value} {xs ys : List Value}

theorem keep (supplied : Value) : Spends supplied [] supplied := .inl rfl

theorem drop (spends : Spends supplied xs left) : Spends supplied xs .nothing := by
  cases xs with
  | nil => exact .inr rfl
  | cons first rest => exact ⟨spends.1, spends.2.1, rfl⟩

/-- With nothing to spend, every step gets nothing. -/
theorem nothing (spends : Spends .nothing xs left) : (∀ v ∈ xs, v = .nothing) ∧ left = .nothing := by
  cases xs with
  | nil => exact ⟨nofun, spends.elim id id⟩
  | cons first rest =>
    obtain ⟨head, tail, rfl⟩ := spends
    refine ⟨?_, rfl⟩
    intro v member
    cases List.mem_cons.mp member with
    | inl same => exact same.trans (head.elim id id)
    | inr later => exact tail v later

theorem of_nothing (each : ∀ v ∈ xs, v = .nothing) : Spends supplied xs .nothing := by
  cases xs with
  | nil => exact .inr rfl
  | cons first rest =>
    have head := each first List.mem_cons_self
    exact ⟨.inr head, fun v later => each v (List.mem_cons_of_mem first later), rfl⟩

theorem append (first : Spends supplied xs middle) (rest : Spends middle ys left) : Spends supplied (xs ++ ys) left := by
  cases xs with
  | nil =>
    obtain rfl | rfl := first
    · exact rest
    · obtain ⟨each, rfl⟩ := rest.nothing
      exact of_nothing each
  | cons x xs =>
    obtain ⟨head, tail, rfl⟩ := first
    obtain ⟨each, rfl⟩ := rest.nothing
    refine ⟨head, ?_, rfl⟩
    intro v member
    cases List.mem_append.mp member with
    | inl early => exact tail v early
    | inr late => exact each v late

theorem later {v : Value} (spends : Spends supplied (xs ++ v :: ys) left) (some : xs ≠ []) : v = .nothing := by
  cases xs with
  | nil => exact absurd rfl some
  | cons x xs => exact spends.2.1 v (List.mem_append_right xs List.mem_cons_self)

end Spends

/-- The input that a part begins with. -/
def Part.supplied : Part → Value
  | .row _ _ p _ => p.supplied
  | .walk _ _ p _ => p.supplied
  | .item _ p _ => p.supplied
  | .inside _ p _ => p.supplied
  | .body _ _ supplied _ => supplied
  | .loop _ _ p _ => p.supplied

/-- The input that is left for what follows a part. Of a part that is left for good, nothing is. -/
def End.left : End → Value
  | .ok (.onward p) => p.supplied
  | .ok (.leave _) => .nothing
  | .error _ => .nothing

theorem CheckMoments.supplies {here stepId role c} {ms : List (Moment σ)} {answer}
    (check : CheckMoments here stepId role c ms answer) : supplies (deedsOf ms) = [] := by
  obtain ⟨w, a, w', same⟩ := check.deeds
  rw [same]
  rfl

theorem TestMoments.supplies {here stepId test resume} {ms : List (Moment σ)}
    (tested : TestMoments here stepId test resume ms) : supplies (deedsOf ms) = [] := by
  cases tested with
  | checked check => exact check.supplies
  | resumed => rfl

section
variable {p q : Progress} {supplied : Value} {xs : List Value}

theorem End.left_ofOutcome (id : String) (outcome : Outcome) : (End.ofOutcome id outcome).left = .nothing := by
  cases outcome <;> rfl

theorem StepMoments.left {here id literal} {ms : List (Moment σ)} {e} (step : StepMoments here id literal supplied ms e) :
    e.left = .nothing := by
  cases step with
  | told => exact End.left_ofOutcome id _
  | missed => rfl
  | failed => rfl

theorem End.left_ofMarker (signal : Signal) (answer : Answer) :
    (End.ofMarker p signal answer).left = p.supplied ∨ (End.ofMarker p signal answer).left = .nothing := by
  rcases answer with fault | halt | _ | _
  · exact .inr rfl
  · exact .inr rfl
  · exact .inl rfl
  · exact .inr rfl

theorem End.left_ofGate {answer : Answer} {e : End} (shut : End.ofGate? p answer = some e) :
    e.left = p.supplied ∨ e.left = .nothing := by
  rcases answer with fault | halt | _ | _
  · cases shut
    exact .inr rfl
  · cases shut
    exact .inr rfl
  · cases shut
    exact .inl rfl
  · cases shut

theorem End.left_ofTest {size : Nat} {answer : Answer} {e : End} (ends : End.ofTest? p size answer = some e) :
    e.left = .nothing := by
  rcases answer with fault | halt | _ | _ <;> cases ends <;> rfl

theorem left_leaveBlock (r : Report) : End.left (.ok (leaveBlock p r)) = .nothing := by
  unfold leaveBlock
  cases r.ending <;> rfl

theorem End.left_ofBlock (e : End) : (e.ofBlock p).left = .nothing := by
  cases e with
  | error fault => rfl
  | ok v => exact left_leaveBlock v.report

theorem End.left_ofLoop (e : End) : (e.ofLoop p).left = .nothing := by
  cases e with
  | error fault => rfl
  | ok v =>
    simp only [End.ofLoop]
    cases v.report.ending <;> rfl

theorem End.again?_supplied {e : End} (again : e.again? p = some q) : q.supplied = .nothing := by
  cases e with
  | error fault => cases again
  | ok v =>
    simp only [End.again?] at again
    cases ending : v.report.ending with
    | passed =>
      rw [ending] at again
      cases again
      rfl
    | halted halt cursors =>
      rw [ending] at again
      cases again
    | signalled signal =>
      rw [ending] at again
      cases signal <;> cases again
      rfl

theorem CloseMoments.left {level here e f} {ns : List (Moment σ)} (closes : CloseMoments level here e ns f) :
    f.left = e.left ∨ f.left = .nothing := by
  cases closes with
  | told => exact .inl rfl
  | missed => exact .inr rfl
  | failed => exact .inr rfl

end

theorem Spends.weaken {supplied left after : Value} {xs : List Value} (spends : Spends supplied xs left)
    (less : after = left ∨ after = .nothing) : Spends supplied xs after := by
  obtain rfl | rfl := less
  · exact spends
  · exact spends.drop

/-- Whatever lies in between, a part spends its input on the first step that it invokes. -/
theorem Chronicle.spends {here : List Int} {t : Part} {ms : List (Moment σ)} {e : End} (chronicle : Chronicle here t ms e) :
    Spends t.supplied (supplies (deedsOf ms)) e.left := by
  induction chronicle with
  | row_end => exact .keep _
  | row_onward first rest ihFirst ihRest =>
    rw [deedsOf_append, supplies_append]
    exact ihFirst.append ihRest
  | row_leave first ih => exact ih
  | row_failed first ih => exact ih
  | ahead ahead row ih => exact ih
  | back back row again ihRow ihAgain =>
    rw [deedsOf_append, supplies_append]
    exact ihRow.append ihAgain
  | back_end back row ends ih => exact ih
  | free free inside ih => exact ih
  | opened gated gate inside ih =>
    rw [deedsOf_append, supplies_append, gate.supplies]
    exact ih
  | shut gated gate shut =>
    rw [gate.supplies]
    exact End.left_ofGate shut
  | marker check =>
    rw [check.supplies]
    exact End.left_ofMarker _ _
  | step step =>
    obtain ⟨w, a, w', same⟩ := step.deeds
    rw [same, step.left]
    exact ⟨.inl rfl, nofun, rfl⟩
  | block body ih =>
    rw [End.left_ofBlock]
    exact ih.drop
  | loop loop ih => exact ih
  | body walk closes ih =>
    rw [deedsOf_told, deedsOf_append, closes.deeds, List.append_nil]
    exact ih.weaken closes.left
  | body_missed => exact .inr rfl
  | spent => exact .inr rfl
  | tested check ends =>
    rw [check.supplies, End.left_ofTest ends]
    exact .inr rfl
  | round tested body again rest ihBody ihRest =>
    rw [deedsOf_append, supplies_append, tested.supplies, deedsOf_append, supplies_append]
    apply ihBody.drop.append
    rw [← End.again?_supplied again]
    exact ihRest
  | round_end tested body ends ih =>
    rw [deedsOf_append, supplies_append, tested.supplies, End.left_ofLoop]
    exact ih.drop

end Engine

/-- The invocation of a step on an input that needs no more. -/
def Call.invokeOn (call : Call) (id : String) (input : Value) (cursors : List Int) : Job Outcome := do
  let step ← Executor.step id
  Job.log .debug "stepflow.workflow.executor" s!"Running step '{id}' at {positionText cursors}"
  match ← Job.orRetriable (step.handle call.context input) with
  | .ok value => Job.outcomeOf value
  | .error failure => return .failed (← Job.haltOfFailure failure)

theorem mergeInput_nothing (literal : Value) : mergeInput literal .nothing = pure literal := by
  cases literal <;> rfl

/-- With nothing supplied, a step is run on its literal input. -/
theorem Call.invoke_nothing (call : Call) (id : String) (literal : Value) (cursors : List Int) :
    call.invoke id literal .nothing cursors = call.invokeOn id literal cursors := by
  unfold invoke invokeOn
  rw [mergeInput_nothing]
  rfl

namespace Request
open Engine (Deed deedsOf)

/-- Whatever a call invokes after its first step is run on the literal input of the step at its place in the schema, and
on nothing that the call was given. -/
theorem later_on_literal (audience : Audience) (input : Value) (fuel : Nat) (r : Request) (w : World)
    {before after : List (Deed World)} {id : String} {literal supplied : Value} {place : List Int} {v v' : World}
    {answer : Except Fault Outcome}
    (course : deedsOf (r.moments audience input fuel w) =
      before ++ .invoked id literal supplied place v answer v' :: after)
    (later : ∃ d ∈ before, d.supplied?.isSome) :
    supplied = .nothing ∧ ∃ b w₁ gate, r.opening w = .ok b w₁ ∧ Schema.find? b.items place = some (.step id literal gate) ∧
      b.call.invokeOn id literal place v = Engine.answered answer v' := by
  cases begun : r.opening w with
  | error fault w₁ =>
    rw [moments, begun] at course
    cases before <;> cases course
  | ok b w₁ =>
    have member : .invoked id literal supplied place v answer v' ∈ deedsOf (r.moments audience input fuel w) := by
      rw [course]
      exact List.mem_append_right before List.mem_cons_self
    obtain ⟨e, w', chronicle, -⟩ := Engine.run_chronicle (b.call.host audience) fuel r.level b.items b.position input w₁
    have spends := chronicle.spends
    have same : Engine.moments (b.call.host audience) fuel r.level b.items b.position input w₁ =
        r.moments audience input fuel w := by rw [moments, begun]
    rw [same, course, Engine.supplies_append] at spends
    have earlier : Engine.supplies before ≠ [] := by
      obtain ⟨d, among, some⟩ := later
      obtain ⟨x, given⟩ := Option.isSome_iff_exists.mp some
      exact List.ne_nil_of_mem (List.mem_filterMap.mpr ⟨d, among, given⟩)
    obtain rfl : supplied = .nothing := spends.later earlier
    obtain ⟨i, found, poses⟩ := placed audience input fuel r w begun _ member
    have ran := done begun _ member
    refine ⟨rfl, b, w₁, ?_⟩
    cases poses with
    | step =>
      refine ⟨_, rfl, found, ?_⟩
      rw [← Call.invoke_nothing]
      exact ran

end Request

/-- Two steps, each with an input of its own. -/
def Schema.relay : Schema := [.step "relay" (.int 1) none, .step "relay" (.int 2) none]

/-- A world in which a step hands back its input. -/
def World.relaying : World :=
  { heap := { objects := #[.dict #[]] }
    registry := { steps := [{ id := "relay", handler := .call (.bound .get (.ref 0)) }]
                  schemas := [{ id := .str "relay", items := Schema.relay, space := .nothing }] } }

def Call.relay : Call := { schema := .str "relay", context := .int 3 }

/-- Whether of two steps the first one takes an integer, and the second one has an integer of its own. -/
def Engine.isRelay (taken literal : Int) : List (Deed World) → Bool
  | [.invoked _ _ (.int n) _ _ _ _, .invoked id (.int m) _ place _ _ _] =>
    n == taken && id == "relay" && m == literal && place == [1]
  | _ => false

theorem Engine.relay_of_isRelay {taken literal : Int} {ds : List (Deed World)} (relay : isRelay taken literal ds = true) :
    ∃ d supplied v answer v', ds = [d] ++ .invoked "relay" (.int literal) supplied [1] v answer v' :: [] ∧
      d.supplied? = some (.int taken) := by
  unfold isRelay at relay
  split at relay
  · simp only [Bool.and_eq_true, beq_iff_eq] at relay
    obtain ⟨⟨⟨rfl, rfl⟩, rfl⟩, rfl⟩ := relay
    exact ⟨_, _, _, _, _, rfl, rfl⟩
  · cases relay

/-- The first of two steps takes the input of the call, and the second one is run on its own. -/
theorem Request.second_on_literal : ∃ d v answer v',
    Engine.deedsOf ((Request.start .relay).moments .silent (.int 9) 1 .relaying) =
      [d, .invoked "relay" (.int 2) .nothing [1] v answer v'] ∧ d.supplied? = some (.int 9) ∧
    Call.relay.invokeOn "relay" (.int 2) [1] v = Engine.answered answer v' := by
  have plays : Engine.isRelay 9 2 (Engine.deedsOf ((Request.start .relay).moments .silent (.int 9) 1 .relaying)) = true := by
    decide +kernel
  obtain ⟨d, supplied, v, answer, v', course, took⟩ := Engine.relay_of_isRelay plays
  obtain ⟨rfl, b, w₁, gate, begun, -, ran⟩ := later_on_literal .silent (.int 9) 1 (.start .relay) .relaying course
    ⟨d, List.mem_singleton.mpr rfl, by rw [took]; rfl⟩
  have known : (start .relay).opening .relaying = .ok ⟨.relay, Schema.relay, []⟩ (World.relaying.starting "relay") := rfl
  cases begun.symm.trans known
  exact ⟨d, v, answer, v', course, took, ran⟩

end Workflow
