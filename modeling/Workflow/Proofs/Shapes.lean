import Workflow.Proofs.Registrations
import Workflow.Proofs.Snapshots
import Workflow.Proofs.Telling

/-! The shapes of results. A call that returns is either finished or halted at a position, and what it offers and what is
set in its result go with that. No marker reaches past the loop that it lies in. -/

namespace Workflow
open Script (Heap Value)
open Engine (Ending Progress Report Verdict)

theorem Schema.formed_iff {inLoop : Bool} {items : List Item} :
    Schema.Formed inLoop items ↔ ∀ i ∈ items, i.Formed inLoop := by
  induction items with
  | nil => exact ⟨fun _ => List.forall_mem_nil _, fun _ => trivial⟩
  | cons i rest ih => rw [Schema.Formed, ih, List.forall_mem_cons]

theorem Schema.Formed.drop {inLoop : Bool} {items : List Item} (formed : Schema.Formed inLoop items) (skip : Nat) :
    Schema.Formed inLoop (items.drop skip) := by
  rw [Schema.formed_iff] at formed ⊢
  exact fun i member => formed i (List.mem_of_mem_drop member)

namespace Engine

/-- The markers of a part lie in loops that belong to the part. -/
def Part.Closed : Part → Prop
  | .row _ _ _ items => Schema.Formed false items
  | .walk _ _ _ items => Schema.Formed false items
  | .item _ _ i => i.Formed false
  | .inside _ _ i => i.Formed false
  | .body _ _ _ items => Schema.Formed false items
  | .loop _ _ _ _ => True

namespace End

/-- A part ends with a signal to a loop around it. -/
def Signals : End → Prop
  | .ok (.leave ⟨_, .signalled _⟩) => True
  | _ => False

variable {p : Progress} {e : End}

theorem signals_under {r : Report} {cursor : Int} (signals : Signals (.ok (.leave (r.under cursor)))) :
    Signals (.ok (.leave r)) := by
  obtain ⟨stepId, ending⟩ := r
  cases ending with
  | signalled => trivial
  | passed => exact signals
  | halted => cases signals

theorem not_signals_ofGate {answer} (shut : ofGate? p answer = some e) : ¬ e.Signals := by
  rcases answer with fault | halt | _ | _ <;> cases shut <;> exact id

theorem not_signals_ofTest {size answer} (ends : ofTest? p size answer = some e) : ¬ e.Signals := by
  rcases answer with fault | halt | _ | _ <;> cases ends <;> exact id

theorem not_signals_ofOutcome (id : String) (outcome : Outcome) : ¬ (ofOutcome id outcome).Signals := by
  cases outcome <;> exact fun impossible => impossible

theorem signals_ofBlock (signals : (ofBlock p e).Signals) : e.Signals := by
  cases e with
  | error fault => exact signals
  | ok v =>
    obtain q | ⟨stepId, ending⟩ := v
    · cases signals
    · cases ending with
      | signalled => trivial
      | passed => cases signals
      | halted => cases signals

theorem not_signals_ofLoop : ¬ (ofLoop p e).Signals := by
  cases e with
  | error fault => exact id
  | ok v =>
    simp only [ofLoop]
    cases v.report.ending <;> exact fun impossible => impossible

end End

/-- No signal reaches past the loop that its marker lies in. -/
theorem Chronicle.not_signals {here : List Int} {t : Part} {ms : List (Moment σ)} {e : End}
    (chronicle : Chronicle here t ms e) (closed : t.Closed) : ¬ e.Signals := by
  induction chronicle with
  | row_end => exact id
  | row_onward first rest ihFirst ihRest => exact ihRest closed.2
  | row_leave first ih => exact fun signals => ih closed.1 (End.signals_under signals)
  | row_failed first ih => exact id
  | ahead ahead row ih => exact ih (closed.drop _)
  | back back row again ihRow ihAgain => exact ihAgain closed
  | back_end back row ends ih => exact ih (closed.drop _)
  | free free inside ih => exact ih closed
  | opened gated gate inside ih => exact ih closed
  | shut gated gate shut => exact End.not_signals_ofGate shut
  | marker check => cases closed
  | step step =>
    cases step with
    | told => exact End.not_signals_ofOutcome _ _
    | missed => exact id
    | failed => exact id
  | block body ih => exact fun signals => ih closed (End.signals_ofBlock signals)
  | loop loop ih => exact ih trivial
  | body walk closes ih =>
    cases closes with
    | told => exact ih closed
    | missed => exact id
    | failed => exact id
  | body_missed => exact id
  | spent => exact id
  | tested check ends => exact End.not_signals_ofTest ends
  | round tested body again rest ihBody ihRest => exact ihRest trivial
  | round_end tested body ends ih => exact End.not_signals_ofLoop

/-- A part that is a row, whose halts are at positions in it. -/
def Part.IsRow : Part → Prop
  | .row _ _ _ _ => True
  | .walk _ _ _ _ => True
  | .body _ _ _ _ => True
  | _ => False

/-- A row that halts does so at a position. -/
theorem Chronicle.halted_within {here : List Int} {t : Part} {ms : List (Moment σ)} {e : End}
    (chronicle : Chronicle here t ms e) (row : t.IsRow) {stepId : String} {halt : Halt} {cursors : List Int}
    (halted : e = .ok (.leave ⟨stepId, .halted halt cursors⟩)) : cursors ≠ [] := by
  induction chronicle with
  | row_end => cases halted
  | row_onward first rest ihFirst ihRest => exact ihRest trivial halted
  | @row_leave here cursor deeper p i items ms r first ih =>
    obtain ⟨id, ending⟩ := r
    cases ending <;> cases halted
    exact List.cons_ne_nil _ _
  | row_failed first ih => cases halted
  | ahead ahead row ih => exact ih trivial halted
  | back back row again ihRow ihAgain => exact ihAgain trivial halted
  | back_end back row ends ih => exact ih trivial halted
  | body walk closes ih =>
    cases closes with
    | told => exact ih trivial halted
    | missed => cases halted
    | failed => cases halted
  | body_missed => cases halted
  | _ => cases row

/-- The report of a schema whose markers lie in loops: it is passed, or halted at a position. -/
theorem run_shape {host : Host σ} {fuel : Nat} {level : Level} {schema : Schema} {position : List Int} {supplied : Value}
    {w w' : σ} {r : Report} (formed : Schema.Formed false schema)
    (ran : run host fuel level schema position supplied w = .ok r w') :
    r.ending = .passed ∨ ∃ halt cursors, r.ending = .halted halt cursors ∧ cursors ≠ [] := by
  obtain ⟨e, w₁, chronicle, same⟩ := run_chronicle host fuel level schema position supplied w
  rw [same] at ran
  cases e with
  | error fault => cases ran
  | ok v =>
    cases ran
    have silent := chronicle.not_signals formed
    obtain p | ⟨stepId, ending⟩ := v
    · exact .inl rfl
    · cases ending with
      | passed => exact .inl rfl
      | signalled => exact absurd trivial silent
      | halted halt cursors => exact .inr ⟨halt, cursors, rfl, chronicle.halted_within trivial rfl⟩

end Engine

/-- The shape of a call that returned and of its result in some heap. -/
structure Execution.Legal (e : Execution) (r : Result) (h : Heap) : Prop where
  one : r.finished = .bool true ∧ e.offer? = none ∨
    r.finished = .bool false ∧ (e.offer? = some .resume ∨ e.offer? = some .retry)
  finished : r.finished = .bool true ∧ r.interrupt = .bool false ∨ r.finished = .bool false ∧ r.interrupt = .bool true
  unset : r.finished = .bool true → r.indexes.listItems? h = some #[] ∧ r.inputRequired = .nothing ∧ r.error = .nothing ∧
    r.errors = .nothing ∧ r.expires = .nothing
  retry : e.offer? = some .retry ↔ r.interrupt = .bool true ∧ r.error ≠ .nothing
  resume : e.offer? = some .resume ↔ r.interrupt = .bool true ∧ r.error = .nothing
  position : r.interrupt = .bool true → ∃ cursors, r.indexes.listItems? h = some cursors ∧ cursors ≠ #[]
  signal : r.loopSignal = .nothing

namespace Execution
variable {e : Execution}

theorem passed_eq (passed : e.report.ending = .passed) (h : Heap) :
    e.result h = .ok
      { schema := e.call.schema, context := e.call.context, indexes := .ref h.objects.size, finished := .bool true
        stepId := .str e.report.stepId }
      (h.alloc (.list #[])).2 := by
  obtain ⟨call, stepId, ending⟩ := e
  cases passed
  rfl

theorem legal_passed (passed : e.report.ending = .passed) (h : Heap) : ∃ r h', e.result h = .ok r h' ∧ e.Legal r h' := by
  refine ⟨_, _, passed_eq passed h, ?_⟩
  have offers : e.offer? = none := by simp only [offer?, halted?, passed, Option.map_none]
  have list := h.alloc_found (.list #[])
  exact {
    one := .inl ⟨rfl, offers⟩
    finished := .inl ⟨rfl, rfl⟩
    unset := fun _ => ⟨by simp only [Value.listItems?, Heap.object_of_getElem? list], rfl, rfl, rfl, rfl⟩
    retry := by simp [offers]
    resume := by simp [offers]
    position := nofun
    signal := rfl }

theorem isPresent_iff (v : Value) : isPresent v = true ↔ v ≠ .nothing := by
  cases v <;> simp [isPresent]

theorem isPresent_eq_false_iff (v : Value) : isPresent v = false ↔ v = .nothing := by
  cases v <;> simp [isPresent]

theorem legal_halted {halt : Engine.Halt} {cursors : List Int} (halted : e.report.ending = .halted halt cursors)
    (inside : cursors ≠ []) (h : Heap) : ∃ r h', e.result h = .ok r h' ∧ e.Legal r h' := by
  have halts : e.halted? = some (halt, cursors) := by simp only [halted?, halted]
  have list := h.alloc_found (.list (cursors.map Value.int).toArray)
  have offers : e.offer? = some (if isPresent halt.error then .retry else .resume) := by
    simp only [offer?, halts, Option.map_some]
  have retries : e.offer? = some .retry ↔ halt.error ≠ .nothing := by
    rw [offers, ← isPresent_iff]
    cases isPresent halt.error <;> decide
  have resumes : e.offer? = some .resume ↔ halt.error = .nothing := by
    rw [offers, ← isPresent_eq_false_iff]
    cases isPresent halt.error <;> decide
  refine ⟨_, _, result_eq halts h, ?_⟩
  exact {
    one := .inr ⟨rfl, (Classical.em _).imp resumes.mpr retries.mpr⟩
    finished := .inr ⟨rfl, rfl⟩
    unset := nofun
    retry := ⟨fun offered => ⟨rfl, retries.mp offered⟩, fun set => retries.mpr set.2⟩
    resume := ⟨fun offered => ⟨rfl, resumes.mp offered⟩, fun unset => resumes.mpr unset.2⟩
    position := fun _ => by
      refine ⟨(cursors.map Value.int).toArray, ?_, by simpa using inside⟩
      simp only [Value.listItems?, Heap.object_of_getElem? list]
    signal := rfl }

end Execution

namespace Request

/-- Whatever call of a registered schema returns, its result has a legal shape. -/
theorem returns_legal {w₀ w w' : World} {audience : Audience} {input : Value} {fuel : Nat} {r : Request} {e : Execution}
    (new : w₀.New) (history : History w₀ w) (ran : r.perform audience input fuel w = .ok e w') (h : Heap) :
    ∃ result h', e.result h = .ok result h' ∧ e.Legal result h' := by
  obtain ⟨b, w₁, begun, -, ran⟩ := returned ran
  obtain ⟨⟨s, stored, same⟩, -⟩ := opening_ok begun
  have consistent := (History.consistent history new.consistent).1
  have formed : Schema.Formed false b.items := by
    rw [same]
    exact (consistent.registry.sound s stored).formed
  obtain passed | ⟨halt, cursors, halted, inside⟩ := Engine.run_shape formed ran
  · exact Execution.legal_passed passed h
  · exact Execution.legal_halted halted inside h

end Request

/-- An executor on which a step that asks for its input was registered, and a schema of that step. -/
def World.inquiring : World :=
  leftBy (Executor.register (.str "inquiry") (.ref 0) .nothing
    (leftBy (Executor.addStep { id := "ask", handler := .source "input", input := .str "name" }
      { heap := { objects := #[.list #[.str "ask"]] } })))

def Call.inquiry : Call := { schema := .str "inquiry", context := .nothing }

/-- A call that halts to ask offers to resume, and no more. -/
theorem Request.inquiry_legal : ∃ e w' result h', (Request.start .inquiry).perform .silent .nothing 1 .inquiring = .ok e w' ∧
    e.offer? = some .resume ∧ e.result w'.heap = .ok result h' ∧ e.Legal result h' := by
  have plays : Engine.passes (fun e _ => e.offer? == some .resume)
    ((Request.start .inquiry).perform .silent .nothing 1 .inquiring) = true := by decide +kernel
  obtain ⟨e, w', ran, offers⟩ := Engine.exists_of_passes plays
  have new : World.New { heap := { objects := #[.list #[.str "ask"]] } } := ⟨rfl, nofun⟩
  have history : History _ .inquiring := (Relation.ReflTransGen.single (.step _ _)).tail (.schema _ _ _ _)
  obtain ⟨result, h', made, legal⟩ := returns_legal new history ran w'.heap
  exact ⟨e, w', result, h', ran, beq_iff_eq.mp offers, made, legal⟩

end Workflow
