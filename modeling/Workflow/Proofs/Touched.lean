import Workflow.Proofs.Shapes
import Workflow.Proofs.Traces

/-! The step that the result of a call names. It is the last one that was invoked, unless the call halts in a row inside
of which no step was invoked before the halt. -/

namespace Workflow
open Script (Heap Value)

namespace Engine

/-- The ids of the steps that are invoked. -/
def touched (ms : List (Moment σ)) : List String := (invocations ms).map (·.1)

/-- The last step that is invoked, or else an earlier one. -/
def lastTouched (earlier : String) (ms : List (Moment σ)) : String := (touched ms).getLast?.getD earlier

/-- Rows that are opened and closed within some events, and what is told of in between. -/
inductive Whole : List Tale → Prop
  | nil : Whole []
  | step {id v ts} (rest : Whole ts) : Whole ((.step id, v) :: ts)
  | checked {role c passed v ts} (rest : Whole ts) : Whole ((.checked role c passed, v) :: ts)
  | row {level v ts u us} (inside : Whole ts) (rest : Whole us) :
      Whole ((.opened level, v) :: (ts ++ (.ended level, u) :: us))

theorem Whole.append {ts us : List Tale} (first : Whole ts) (rest : Whole us) : Whole (ts ++ us) := by
  induction first with
  | nil => exact rest
  | step _ ih => exact .step ih
  | checked _ ih => exact .checked ih
  | row inside _ _ ih =>
    rw [List.cons_append, List.append_assoc, List.cons_append]
    exact .row inside ih

/-- Some moments lead from one step that was touched last to another, and close every row that they open. -/
structure Leads (s t : String) (ms : List (Moment σ)) : Prop where
  whole : Whole (talesOf ms)
  last : t = lastTouched s ms

/-- A row is interrupted. -/
def Moment.Interrupts : Moment σ → Prop
  | .told (.interrupted _) _ _ _ => True
  | _ => False

/-- What a halt leaves as the step that was touched last: the last one in the row that is open at the halt. That row is
the one under way, or one inside of it, of which the steps before it are forgotten. -/
inductive Strands (s : String) : List (Moment σ) → String → Prop
  | here {t : String} {ms : List (Moment σ)} (leads : Leads s t ms) : Strands s ms t
  | inside {t : String} {before row closings : List (Moment σ)} {v : View} {w w' : σ} (leads : Leads "" t row)
      (closed : ∀ m ∈ closings, m.Interrupts) :
      Strands s (before ++ .told (.opened .nested) v w w' :: (row ++ closings)) t

section
variable {s t u : String} {ms ns : List (Moment σ)}

theorem touched_append (ms ns : List (Moment σ)) : touched (ms ++ ns) = touched ms ++ touched ns := by
  rw [touched, invocations_append, List.map_append]
  rfl

theorem lastTouched_append : lastTouched s (ms ++ ns) = lastTouched (lastTouched s ms) ns := by
  rw [lastTouched, touched_append, List.getLast?_append, Option.getD_or]
  rfl

theorem lastTouched_none (none : touched ms = []) : lastTouched s ms = s := by
  rw [lastTouched, none]
  rfl

theorem touched_closings (closed : ∀ m ∈ ms, m.Interrupts) : touched ms = [] := by
  induction ms with
  | nil => rfl
  | cons m rest ih =>
    obtain ⟨first, later⟩ := List.forall_mem_cons.mp closed
    cases m with
    | told => exact ih later
    | done => cases first
    | missed => cases first

theorem touched_told {event : Event} {v : View} {w w' : σ} : touched (.told event v w w' :: ms) = touched ms := rfl

/-- A row that touches some step is the last to do so, and one that touches none changes nothing. -/
theorem lastStep_lastTouched (named : ∀ id ∈ touched ms, id ≠ "") : lastStep s (lastTouched "" ms) = lastTouched s ms := by
  unfold lastTouched lastStep
  cases last : (touched ms).getLast? with
  | none => rfl
  | some id =>
    have present : id ≠ "" := named id (List.mem_of_getLast? last)
    simp [present]

namespace Leads

theorem nil : Leads s s ([] : List (Moment σ)) := ⟨.nil, rfl⟩

theorem append (first : Leads s t ms) (rest : Leads t u ns) : Leads s u (ms ++ ns) where
  whole := by
    rw [talesOf_append]
    exact first.whole.append rest.whole
  last := by rw [lastTouched_append, ← first.last, ← rest.last]

end Leads

namespace Strands

theorem after (strands : Strands t ns u) (first : Leads s t ms) : Strands s (ms ++ ns) u := by
  cases strands with
  | here leads => exact .here (first.append leads)
  | @inside _ before row closings v w w' leads closed =>
    rw [← List.append_assoc]
    exact .inside leads closed

end Strands

theorem CheckMoments.leads {here stepId role c} {ms : List (Moment σ)} {answer}
    (check : CheckMoments here stepId role c ms answer) : Leads s s ms := by
  cases check with
  | told => exact ⟨.checked .nil, rfl⟩
  | missed => exact ⟨.nil, rfl⟩
  | stopped => exact ⟨.nil, rfl⟩

theorem TestMoments.leads {here stepId test resume} {ms : List (Moment σ)}
    (tested : TestMoments here stepId test resume ms) : Leads s s ms := by
  cases tested with
  | checked check => exact check.leads
  | resumed => exact .nil

end

/-- What the end of a part has as the step that was touched last. -/
structure Trails (s : String) (ms : List (Moment σ)) (e : End) : Prop where
  runs : ∀ v, e = .ok v → e.Runs → Leads s v.report.stepId ms
  halts : ∀ t halt cursors, e = .ok (.leave ⟨t, .halted halt cursors⟩) → Strands s ms t

/-- What the end of a whole row has as the step that was touched last. The row is opened first, and if it halts, it is
interrupted in the end. -/
structure Bracketed (level : Level) (ms : List (Moment σ)) (e : End) : Prop where
  runs : ∀ v, e = .ok v → e.Runs → Leads "" v.report.stepId ms
  halts : ∀ t halt cursors, e = .ok (.leave ⟨t, .halted halt cursors⟩) → ∃ v w w' row closing,
    ms = .told (.opened level) v w w' :: (row ++ [closing]) ∧ closing.Interrupts ∧ Strands "" row t

section
variable {s t : String} {ms ns : List (Moment σ)} {e : End} {p q : Progress}

namespace Trails

theorem failed {fault : Fault} : Trails s ms (.error fault) := ⟨nofun, nofun⟩

theorem after (rest : Trails t ns e) (first : Leads s t ms) : Trails s (ms ++ ns) e where
  runs v done runs := first.append (rest.runs v done runs)
  halts _ _ _ done := (rest.halts _ _ _ done).after first

/-- A part that ends without any step of its own. -/
theorem of_leads (leads : Leads s t ms) (same : ∀ v, e = .ok v → v.report.stepId = t) : Trails s ms e where
  runs v done _ := by
    rw [same v done]
    exact leads
  halts _ _ _ done := by
    obtain rfl := same _ done
    exact .here leads

theorem under {r : Report} (inside : Trails s ms (.ok (.leave r))) (cursor : Int) :
    Trails s ms (.ok (.leave (r.under cursor))) := by
  obtain ⟨last, ending⟩ := r
  cases ending with
  | halted halt cursors =>
    constructor
    · exact fun _ _ impossible => impossible.elim
    · rintro _ _ _ ⟨⟩
      exact inside.halts _ _ _ rfl
  | passed => exact inside
  | signalled => exact inside

/-- What is told around a row. -/
theorem body {v : Verdict} (inside : Trails "" ms (.ok v)) (level : Level) (here : List Int) (u : View) (w w' x x' : σ) :
    Bracketed level (.told (.opened level) u w w' ::
      (ms ++ [.told (v.report.closing level here).1 (v.report.closing level here).2 x x'])) (.ok v) := by
  constructor
  · rintro _ ⟨⟩ runs
    obtain ⟨whole, last⟩ := inside.runs v rfl runs
    have closing : (v.report.closing level here).1 = .ended level := by
      obtain q | ⟨last, ending⟩ := v
      · rfl
      · cases ending with
        | passed => rfl
        | signalled => rfl
        | halted => exact runs.elim
    constructor
    · rw [talesOf_told, talesOf_append, closing]
      exact .row whole .nil
    · change _ = lastTouched "" (ms ++ _)
      rw [lastTouched_append, lastTouched_none rfl, ← last]
  · intro t halt cursors halted
    cases halted
    exact ⟨_, _, _, ms, _, rfl, trivial, inside.halts _ _ _ rfl⟩

end Trails

namespace Bracketed

theorem strands (bracketed : Bracketed .nested ms e) {halt : Halt} {cursors : List Int}
    (halted : e = .ok (.leave ⟨t, .halted halt cursors⟩)) : Strands s ms t := by
  obtain ⟨v, w, w', row, closing, rfl, closes, inside⟩ := bracketed.halts _ _ _ halted
  cases inside with
  | here leads =>
    have strands : Strands s ([] ++ .told (.opened .nested) v w w' :: (row ++ [closing])) t :=
      .inside leads (List.forall_mem_singleton.mpr closes)
    exact strands
  | @inside _ before row closings u x x' leads closed =>
    have strands : Strands s ((.told (.opened .nested) v w w' :: before) ++
        .told (.opened .nested) u x x' :: (row ++ (closings ++ [closing]))) t :=
      .inside leads (List.forall_mem_append.mpr ⟨closed, List.forall_mem_singleton.mpr closes⟩)
    simpa [List.append_assoc] using strands

theorem leads (bracketed : Bracketed .nested ms e) (named : ∀ id ∈ touched ms, id ≠ "") {v : Verdict} (done : e = .ok v)
    (runs : e.Runs) : Leads s (lastStep s v.report.stepId) ms := by
  obtain ⟨whole, last⟩ := bracketed.runs v done runs
  refine ⟨whole, ?_⟩
  rw [last, lastStep_lastTouched named]

/-- A block and a loop both keep what their row has touched last. -/
theorem outer (bracketed : Bracketed .nested ms e) (named : ∀ id ∈ touched ms, id ≠ "") {f : End}
    (left : f = e.ofBlock p ∨ f = e.ofLoop p) : Trails p.stepId ms f := by
  cases e with
  | error fault => obtain rfl | rfl := left <;> exact .failed
  | ok v =>
    have leads := bracketed.leads (s := p.stepId) named rfl
    obtain q | ⟨last, ending⟩ := v
    · refine .of_leads (leads trivial) (fun v done => ?_)
      obtain rfl | rfl := left <;> cases done <;> rfl
    · cases ending with
      | halted halt cursors =>
        have halted : f = .ok (.leave ⟨last, .halted halt cursors⟩) := by obtain rfl | rfl := left <;> rfl
        rw [halted]
        refine ⟨fun _ _ impossible => impossible.elim, ?_⟩
        rintro _ _ _ ⟨⟩
        exact bracketed.strands rfl
      | passed =>
        refine .of_leads (leads trivial) (fun v done => ?_)
        obtain rfl | rfl := left <;> cases done <;> rfl
      | signalled =>
        refine .of_leads (leads trivial) (fun v done => ?_)
        obtain rfl | rfl := left <;> cases done <;> rfl

theorem again (bracketed : Bracketed .nested ms e) (named : ∀ id ∈ touched ms, id ≠ "") (again : e.again? p = some q) :
    Leads p.stepId q.stepId ms := by
  have runs := End.runs_again again
  cases e with
  | error fault => cases again
  | ok v =>
    have leads := bracketed.leads (s := p.stepId) named rfl runs
    have same : q = ⟨.nothing, lastStep p.stepId v.report.stepId⟩ := by
      simp only [End.again?] at again
      split at again <;> cases again
      rfl
    rw [same]
    exact leads

end Bracketed

end

/-- What the end of a part has as the step that was touched last, with the step before the part. -/
def Part.Trails (ms : List (Moment σ)) (e : End) : Part → Prop
  | .row _ _ p _ => Engine.Trails p.stepId ms e
  | .walk _ _ p _ => Engine.Trails p.stepId ms e
  | .item _ p _ => Engine.Trails p.stepId ms e
  | .inside _ p _ => Engine.Trails p.stepId ms e
  | .body level _ _ _ => Bracketed level ms e
  | .loop _ _ p _ => Engine.Trails p.stepId ms e

theorem Chronicle.trails {here : List Int} {t : Part} {ms : List (Moment σ)} {e : End} (chronicle : Chronicle here t ms e)
    (named : ∀ id ∈ touched ms, id ≠ "") : t.Trails ms e := by
  induction chronicle with
  | row_end => exact .of_leads .nil (by rintro _ ⟨⟩; rfl)
  | row_onward first rest ihFirst ihRest =>
    rw [touched_append, List.forall_mem_append] at named
    exact (ihRest named.2).after ((ihFirst named.1).runs _ rfl trivial)
  | row_leave first ih => exact (ih named).under _
  | row_failed first ih => exact .failed
  | ahead ahead row ih => exact ih named
  | back back row again ihRow ihAgain =>
    rw [touched_append, List.forall_mem_append] at named
    exact (ihAgain named.2).after ((ihRow named.1).runs _ rfl trivial)
  | back_end back row ends ih => exact ih named
  | free free inside ih => exact ih named
  | opened gated gate inside ih =>
    rw [touched_append, List.forall_mem_append] at named
    exact (ih named.2).after gate.leads
  | @shut here p i c ms answer e gated gate shut =>
    refine .of_leads gate.leads (fun v done => ?_)
    subst done
    rcases answer with fault | halt | _ | _ <;> cases shut <;> rfl
  | @marker here deeper p signal test ms answer check =>
    refine .of_leads check.leads (fun v done => ?_)
    rcases answer with fault | halt | _ | _ <;> cases done <;> rfl
  | step step =>
    cases step with
    | @told w outcome =>
      refine .of_leads ⟨.step .nil, rfl⟩ (fun v done => ?_)
      cases outcome <;> cases done <;> rfl
    | missed => exact .failed
    | failed => exact .failed
  | block body ih => exact (ih named).outer named (.inl rfl)
  | loop loop ih => exact ih named
  | body walk closes ih =>
    cases closes with
    | told =>
      rw [touched_told, touched_append, List.forall_mem_append] at named
      exact (ih named.1).body _ _ _ _ _ _ _
    | missed => exact ⟨nofun, nofun⟩
    | failed => exact ⟨nofun, nofun⟩
  | body_missed => exact ⟨nofun, nofun⟩
  | spent => exact .failed
  | @tested here test p items ms answer e check ends =>
    refine .of_leads check.leads (fun v done => ?_)
    subst done
    rcases answer with fault | halt | _ | _ <;> cases ends <;> rfl
  | round tested body again rest ihBody ihRest =>
    rw [touched_append, touched_append, List.forall_mem_append, List.forall_mem_append] at named
    have first := (ihBody named.2.1).again named.2.1 again
    exact ((ihRest named.2.2).after first).after tested.leads
  | round_end tested body ends ih =>
    rw [touched_append, List.forall_mem_append] at named
    exact ((ih named.2).outer named.2 (.inr rfl)).after tested.leads

/-- The moments of a call that halts in a row inside another one. No step was invoked in that row since it was opened,
though some step was before. -/
def Forgets (ms : List (Moment σ)) : Prop :=
  ∃ before row closings v w w', ms = before ++ .told (.opened .nested) v w w' :: (row ++ closings) ∧
    Whole (talesOf row) ∧ (∀ m ∈ closings, m.Interrupts) ∧ touched row = [] ∧ touched before ≠ []

/-- A name is that of the last step that was invoked, or empty if none was. -/
def NamesLast (name : String) (ms : List (Moment σ)) : Prop :=
  (touched ms).getLast? = some name ∧ name ≠ "" ∨ touched ms = [] ∧ name = ""

theorem namesLast_lastTouched {ms : List (Moment σ)} (named : ∀ id ∈ touched ms, id ≠ "") :
    NamesLast (lastTouched "" ms) ms := by
  rw [lastTouched]
  cases last : (touched ms).getLast? with
  | none => exact .inr ⟨List.getLast?_eq_none_iff.mp last, rfl⟩
  | some id => exact .inl ⟨last, named id (List.mem_of_getLast? last)⟩

/-- What a halt leaves is the last step of all, unless none was invoked in the row that is open. -/
theorem Strands.namesLast {ms : List (Moment σ)} {t : String} (strands : Strands "" ms t)
    (named : ∀ id ∈ touched ms, id ≠ "") : NamesLast t ms ∨ t = "" ∧ Forgets ms := by
  cases strands with
  | here leads =>
    rw [leads.last]
    exact .inl (namesLast_lastTouched named)
  | @inside _ before row closings v w w' leads closed =>
    have course : touched (before ++ .told (.opened .nested) v w w' :: (row ++ closings)) = touched before ++ touched row := by
      rw [touched_append, touched_told, touched_append, touched_closings closed, List.append_nil]
    rw [course, List.forall_mem_append] at named
    obtain last | ⟨none, empty⟩ := namesLast_lastTouched named.2
    · rw [← leads.last] at last
      refine .inl (.inl ⟨?_, last.2⟩)
      rw [course, List.getLast?_append, last.1]
      rfl
    · rw [← leads.last] at empty
      by_cases first : touched before = []
      · exact .inl (.inr ⟨by rw [course, first, none]; rfl, empty⟩)
      · exact .inr ⟨empty, before, row, closings, v, w, w', rfl, leads.whole, closed, none, first⟩

/-- What is told around a row changes neither of them. -/
theorem bracket_touched {event : Event} {v : View} {w w' : σ} {row : List (Moment σ)} {closing : Moment σ}
    (closes : closing.Interrupts) : touched (.told event v w w' :: (row ++ [closing])) = touched row := by
  rw [touched_told, touched_append, touched_closings (List.forall_mem_singleton.mpr closes), List.append_nil]

theorem Forgets.bracket {event : Event} {v : View} {w w' : σ} {row : List (Moment σ)} {closing : Moment σ}
    (forgets : Forgets row) (closes : closing.Interrupts) : Forgets (.told event v w w' :: (row ++ [closing])) := by
  obtain ⟨before, inner, closings, u, x, x', rfl, whole, closed, none, some⟩ := forgets
  refine ⟨.told event v w w' :: before, inner, closings ++ [closing], u, x, x', ?_, whole, ?_, none, some⟩
  · simp [List.append_assoc]
  · exact List.forall_mem_append.mpr ⟨closed, List.forall_mem_singleton.mpr closes⟩

theorem End.halted_of_not_runs {v : Verdict} (halts : ¬ End.Runs (.ok v)) :
    ∃ t halt cursors, v = .leave ⟨t, .halted halt cursors⟩ := by
  obtain p | ⟨t, ending⟩ := v
  · exact absurd trivial halts
  · cases ending with
    | passed => exact absurd trivial halts
    | signalled => exact absurd trivial halts
    | halted halt cursors => exact ⟨t, halt, cursors, rfl⟩

/-- A whole row is left with its last step, unless it forgets it. -/
theorem Bracketed.namesLast {level : Level} {ms : List (Moment σ)} {v : Verdict} (bracketed : Bracketed level ms (.ok v))
    (named : ∀ id ∈ touched ms, id ≠ "") :
    NamesLast v.report.stepId ms ∨ ¬ End.Runs (.ok v) ∧ v.report.stepId = "" ∧ Forgets ms := by
  by_cases runs : End.Runs (.ok v)
  · rw [(bracketed.runs v rfl runs).last]
    exact .inl (namesLast_lastTouched named)
  · obtain ⟨t, halt, cursors, rfl⟩ := End.halted_of_not_runs runs
    obtain ⟨_, _, _, row, closing, rfl, closes, strands⟩ := bracketed.halts _ _ _ rfl
    rw [bracket_touched closes] at named
    obtain names | ⟨empty, forgets⟩ := strands.namesLast named
    · rw [NamesLast, bracket_touched closes]
      exact .inl names
    · exact .inr ⟨runs, empty, forgets.bracket closes⟩

end Engine

theorem Schema.named_iff {items : List Item} : Schema.Named items ↔ ∀ i ∈ items, i.Named := by
  induction items with
  | nil => exact ⟨fun _ => List.forall_mem_nil _, fun _ => trivial⟩
  | cons i rest ih => rw [Schema.Named, ih, List.forall_mem_cons]

theorem Item.Named.row {i : Item} {row : List Item} {looped : Bool} (named : i.Named) (inner : i.row? = some (row, looped)) :
    Schema.Named row := by
  cases i with
  | step => cases inner
  | marker => cases inner
  | block => cases inner; exact named
  | loop => cases inner; exact named

theorem Item.Named.below {i j : Item} {cursors : List Int} (named : i.Named) (found : i.below? cursors = some j) :
    j.Named := by
  induction cursors generalizing i with
  | nil =>
    cases found
    exact named
  | cons cursor deeper ih =>
    rw [Item.below?] at found
    cases inner : i.row? with
    | none =>
      rw [inner] at found
      cases found
    | some pair =>
      obtain ⟨row, looped⟩ := pair
      rw [inner] at found
      dsimp only at found
      cases there : itemAt? row cursor with
      | none =>
        rw [there] at found
        cases found
      | some k =>
        rw [there] at found
        exact ih (Schema.named_iff.mp (named.row inner) k (itemAt?_mem there)) found

theorem Schema.Named.find {items : Schema} {j : Item} {cursors : List Int} (named : Schema.Named items)
    (found : items.find? cursors = some j) : j.Named := by
  cases cursors with
  | nil => cases found
  | cons cursor deeper =>
    rw [Schema.find?] at found
    cases there : itemAt? items cursor with
    | none =>
      rw [there] at found
      cases found
    | some k =>
      rw [there] at found
      exact (Schema.named_iff.mp named k (itemAt?_mem there)).below found

namespace Request
variable {w₀ w w' : World} {audience : Audience} {input : Value} {fuel : Nat} {r : Request} {e : Execution}

/-- The steps that a call of a registered schema invokes have ids that are not empty. -/
theorem touched_named (audience : Audience) (input : Value) (fuel : Nat) (r : Request) (new : w₀.New) (history : History w₀ w) :
    ∀ id ∈ Engine.touched (r.moments audience input fuel w), id ≠ "" := by
  intro id member
  cases begun : r.opening w with
  | error fault w₁ =>
    rw [Request.moments, begun] at member
    cases member
  | ok b w₁ =>
    obtain ⟨⟨s, stored, same⟩, -⟩ := opening_ok begun
    have consistent := (History.consistent history new.consistent).1
    have named : Schema.Named b.items := by
      rw [same]
      exact Schema.Formed.named _ (consistent.registry.sound s stored).formed
    obtain ⟨⟨_, place⟩, invoked, rfl⟩ := List.mem_map.mp member
    obtain ⟨d, done, found⟩ := List.mem_filterMap.mp invoked
    obtain ⟨j, there, poses⟩ := placed audience input fuel r w begun d done
    have item := named.find there
    cases d with
    | checked => cases found
    | invoked =>
      cases found
      cases poses with
      | step => exact item

open Engine (Forgets NamesLast) in
/-- The result of every call names the last step that the call invoked, and no step if it invoked none. Only if it halts
in a row inside another one, before any step is invoked in that row, the result names no step though one was invoked. -/
theorem result_names_last_touched (new : w₀.New) (history : History w₀ w)
    (ran : r.perform audience input fuel w = .ok e w') (h : Heap) :
    ∃ result h' name, e.result h = .ok result h' ∧ result.stepId = .str name ∧
      (NamesLast name (r.moments audience input fuel w) ∨
        e.halted?.isSome ∧ name = "" ∧ Forgets (r.moments audience input fuel w)) := by
  have named := touched_named audience input fuel r new history
  obtain ⟨b, w₁, begun, -, run⟩ := returned ran
  obtain ⟨f, w₂, chronicle, course, -⟩ := chronicled audience input fuel begun
  rw [run] at course
  refine ⟨_, _, e.report.stepId, rfl, rfl, ?_⟩
  cases f with
  | error fault => cases course
  | ok v =>
    obtain ⟨same, -⟩ := EStateM.Result.ok.inj course
    rw [same]
    obtain names | ⟨halts, empty, forgets⟩ := (chronicle.trails named).namesLast named
    · exact .inl names
    · obtain ⟨t, halt, cursors, rfl⟩ := Engine.End.halted_of_not_runs halts
      refine .inr ⟨?_, empty, forgets⟩
      rw [Execution.halted?, same]
      rfl

end Request

/-- A call that halts on the step that it has invoked names that step. -/
theorem Request.inquiry_names_step : ∃ e w' result h', (Request.start .inquiry).perform .silent .nothing 1 .inquiring = .ok e w' ∧
    e.result w'.heap = .ok result h' ∧ result.stepId = .str "ask" ∧
    Engine.NamesLast "ask" ((Request.start .inquiry).moments .silent .nothing 1 .inquiring) := by
  have plays : Engine.passes (fun e _ => e.report.stepId == "ask")
    ((Request.start .inquiry).perform .silent .nothing 1 .inquiring) = true := by decide +kernel
  obtain ⟨e, w', ran, last⟩ := Engine.exists_of_passes plays
  have new : World.New { heap := { objects := #[.list #[.str "ask"]] } } := ⟨rfl, nofun⟩
  have history : History _ .inquiring := (Relation.ReflTransGen.single (.step _ _)).tail (.schema _ _ _ _)
  obtain ⟨result, h', name, made, named, names⟩ := result_names_last_touched new history ran w'.heap
  obtain rfl : name = "ask" := by
    cases made
    cases named
    exact beq_iff_eq.mp last
  obtain names | ⟨-, empty, -⟩ := names
  · exact ⟨e, w', result, h', ran, made, named, names⟩
  · exact absurd empty (by decide)

/-- A heap with a schema of a step, and of a block in which the gate of that step fails. -/
def World.stumblingBefore : World where
  heap :=
    { objects := #[.list #[.str "a", .ref 1], .dict #[(.str "steps", .tuple [.ref 2])],
        .dict #[(.str "id", .str "a"), (.str "condition", .ref 3)],
        .supplied { source := "raise StepRetriableError(ctx)", deferred := false, name := "fail" }] }

/-- An executor on which the step and the schema were registered. -/
def World.stumbling : World :=
  leftBy (Executor.register (.str "stumble") (.ref 0) .nothing
    (leftBy (Executor.addStep { id := "a", handler := .source "input" } .stumblingBefore)))

def Call.stumbling : Call := { schema := .str "stumble", context := .int 1 }

/-- The gate in the block halts a call that has invoked a step, and the result names no step. -/
theorem Request.stumbling_names_no_step : ∃ e w' result h', World.stumblingBefore.New ∧ History .stumblingBefore .stumbling ∧
    (Request.start .stumbling).perform .silent .nothing 1 .stumbling = .ok e w' ∧ e.result w'.heap = .ok result h' ∧
    result.stepId = .str "" ∧ Engine.touched ((Request.start .stumbling).moments .silent .nothing 1 .stumbling) = ["a"] := by
  have plays : Engine.passes (fun e _ => e.report.stepId == "")
    ((Request.start .stumbling).perform .silent .nothing 1 .stumbling) = true := by decide +kernel
  obtain ⟨e, w', ran, last⟩ := Engine.exists_of_passes plays
  have history : History .stumblingBefore .stumbling := (Relation.ReflTransGen.single (.step _ _)).tail (.schema _ _ _ _)
  exact ⟨e, w', _, _, ⟨rfl, nofun⟩, history, ran, rfl, congrArg Value.str (beq_iff_eq.mp last), by decide +kernel⟩

end Workflow
