import Workflow.Proofs.Moments
import Workflow.Proofs.Performance

/-! The course of a traversal, from wherever it goes on. A chronicle follows the schema: it lists what a part of it does
and tells of, and how that part ends. Whatever a traversal logs is a chronicle, also if it fails, if its fuel is spent, or
if it goes on from a position that counts from the end of a row. -/

namespace Workflow.Engine
open Script (Value)

/-- How a part of a schema is left, unless it fails. -/
abbrev End := Except Fault Verdict

/-- A part of a schema. The cursors that lie deeper are those at which it is gone on with; there are none if it begins. -/
inductive Part where
  /-- The rest of a row, whose first item is at a cursor. -/
  | row (cursor : Int) (deeper : List Int) (p : Progress) (items : List Item)
  /-- A row from some cursor on, which counts from the end of the row if it is below zero. -/
  | walk (start : Int) (deeper : List Int) (p : Progress) (items : List Item)
  | item (deeper : List Int) (p : Progress) (i : Item)
  /-- An item whose gate, if it counts, holds. -/
  | inside (deeper : List Int) (p : Progress) (i : Item)
  /-- A whole row, whose start and end are told of. -/
  | body (level : Level) (resume : List Int) (supplied : Value) (items : List Item)
  /-- A loop before its test, or before an iteration that is gone on with. -/
  | loop (test : Condition) (resume : List Int) (p : Progress) (items : List Item)

namespace End

/-- What a gate makes of its item, unless it is open. -/
def ofGate? (p : Progress) : Answer → Option End
  | .ok (.ok true) => none
  | .ok (.ok false) => some (.ok (.onward p))
  | .ok (.error halt) => some (.ok (.leave ⟨p.stepId, .halted halt []⟩))
  | .error fault => some (.error fault)

/-- What the test of a loop makes of the loop, unless it holds. -/
def ofTest? (p : Progress) (size : Nat) : Answer → Option End
  | .ok (.ok true) => none
  | .ok (.ok false) => some (.ok (.onward ⟨.nothing, p.stepId⟩))
  | .ok (.error halt) => some (.ok (.leave ⟨p.stepId, .halted halt [(size : Int)]⟩))
  | .error fault => some (.error fault)

def ofMarker (p : Progress) (signal : Signal) : Answer → End
  | .ok (.ok true) => .ok (.leave ⟨p.stepId, .signalled signal⟩)
  | .ok (.ok false) => .ok (.onward p)
  | .ok (.error halt) => .ok (.leave ⟨p.stepId, .halted halt []⟩)
  | .error fault => .error fault

def ofOutcome (id : String) : Outcome → End
  | .done => .ok (.onward ⟨.nothing, id⟩)
  | .awaits halt => .ok (.leave ⟨id, .halted halt []⟩)
  | .failed halt => .ok (.leave ⟨id, .halted halt []⟩)

def ofBlock (p : Progress) (e : End) : End := e.map (fun v => leaveBlock p v.report)

/-- With what a loop goes back to its test when an iteration ends, unless it is left. -/
def again? (p : Progress) : End → Option Progress
  | .error _ => none
  | .ok v =>
    match v.report.ending with
    | .halted _ _ => none
    | .signalled .breakLoop => none
    | _ => some ⟨.nothing, lastStep p.stepId v.report.stepId⟩

/-- What the end of an iteration makes of a loop that does not go back to its test. -/
def ofLoop (p : Progress) : End → End
  | .error fault => .error fault
  | .ok v =>
    match v.report.ending with
    | .halted halt cursors => .ok (.leave ⟨v.report.stepId, .halted halt cursors⟩)
    | _ => .ok (.onward ⟨.nothing, lastStep p.stepId v.report.stepId⟩)

end End

inductive CheckMoments (here : List Int) (stepId : String) (role : Role) (c : Condition) :
    List (Moment σ) → Answer → Prop where
  | told {w passed w₁ w₂ w₃} : CheckMoments here stepId role c
      [.done (.checked role c here w (.ok (.ok passed)) w₁), .told (.checked role c passed) { cursors := here, stepId } w₂ w₃]
      (.ok (.ok passed))
  | missed {w passed w₁ w₂ fault w₃} : CheckMoments here stepId role c
      [.done (.checked role c here w (.ok (.ok passed)) w₁),
        .missed (.checked role c passed) { cursors := here, stepId } w₂ fault w₃] (.error fault)
  | stopped {w answer w₁} (stops : ∀ passed, answer ≠ .ok (.ok passed)) :
      CheckMoments here stepId role c [.done (.checked role c here w answer w₁)] answer

inductive StepMoments (here : List Int) (id : String) (literal supplied : Value) : List (Moment σ) → End → Prop where
  | told {w outcome w₁ w₂ w₃} : StepMoments here id literal supplied
      [.done (.invoked id literal supplied here w (.ok outcome) w₁),
        .told (.step id) { cursors := here, stepId := id, halt := outcome.halt? } w₂ w₃] (.ofOutcome id outcome)
  | missed {w outcome w₁ w₂ fault w₃} : StepMoments here id literal supplied
      [.done (.invoked id literal supplied here w (.ok outcome) w₁),
        .missed (.step id) { cursors := here, stepId := id, halt := outcome.halt? } w₂ fault w₃] (.error fault)
  | failed {w fault w₁} :
      StepMoments here id literal supplied [.done (.invoked id literal supplied here w (.error fault) w₁)] (.error fault)

/-- What is told of the end of a row. Of one that fails, nothing is. -/
inductive CloseMoments (level : Level) (here : List Int) : End → List (Moment σ) → End → Prop where
  | told {v w w'} : CloseMoments level here (.ok v)
      [.told (v.report.closing level here).1 (v.report.closing level here).2 w w'] (.ok v)
  | missed {v w fault w'} : CloseMoments level here (.ok v)
      [.missed (v.report.closing level here).1 (v.report.closing level here).2 w fault w'] (.error fault)
  | failed {fault} : CloseMoments level here (.error fault) [] (.error fault)

/-- The test of a loop holds. Before an iteration that is gone on with, it is not checked. -/
inductive TestMoments (here : List Int) (stepId : String) (test : Condition) : List Int → List (Moment σ) → Prop where
  | checked {ms} (check : CheckMoments here stepId .test test ms (.ok (.ok true))) : TestMoments here stepId test [] ms
  | resumed {cursor deeper} : TestMoments here stepId test (cursor :: deeper) []

inductive Chronicle {σ : Type} : List Int → Part → List (Moment σ) → End → Prop where
  | row_end {here cursor deeper p} : Chronicle here (.row cursor deeper p []) [] (.ok (.onward p))
  | row_onward {here cursor deeper p i items ms q ns e}
      (first : Chronicle (here ++ [cursor]) (.item deeper p i) ms (.ok (.onward q)))
      (rest : Chronicle here (.row (cursor + 1) [] q items) ns e) :
      Chronicle here (.row cursor deeper p (i :: items)) (ms ++ ns) e
  | row_leave {here cursor deeper p i items ms r}
      (first : Chronicle (here ++ [cursor]) (.item deeper p i) ms (.ok (.leave r))) :
      Chronicle here (.row cursor deeper p (i :: items)) ms (.ok (.leave (r.under cursor)))
  | row_failed {here cursor deeper p i items ms fault}
      (first : Chronicle (here ++ [cursor]) (.item deeper p i) ms (.error fault)) :
      Chronicle here (.row cursor deeper p (i :: items)) ms (.error fault)
  | ahead {here start deeper p items ms e} (ahead : 0 ≤ start)
      (row : Chronicle here (.row start deeper p (items.drop start.toNat)) ms e) :
      Chronicle here (.walk start deeper p items) ms e
  | back {here start deeper p items ms q ns e} (back : start < 0)
      (row : Chronicle here (.row start deeper p (items.drop (start + items.length).toNat)) ms (.ok (.onward q)))
      (again : Chronicle here (.row 0 [] q items) ns e) : Chronicle here (.walk start deeper p items) (ms ++ ns) e
  | back_end {here start deeper p items ms e} (back : start < 0)
      (row : Chronicle here (.row start deeper p (items.drop (start + items.length).toNat)) ms e)
      (ends : ∀ q, e ≠ .ok (.onward q)) : Chronicle here (.walk start deeper p items) ms e
  | free {here deeper p i ms e} (free : deeper ≠ [] ∨ i.gate? = none)
      (inside : Chronicle here (.inside deeper p i) ms e) : Chronicle here (.item deeper p i) ms e
  | opened {here p i c ms ns e} (gated : i.gate? = some c)
      (gate : CheckMoments here p.stepId .gate c ms (.ok (.ok true)))
      (inside : Chronicle here (.inside [] p i) ns e) : Chronicle here (.item [] p i) (ms ++ ns) e
  | shut {here p i c ms answer e} (gated : i.gate? = some c)
      (gate : CheckMoments here p.stepId .gate c ms answer) (shut : End.ofGate? p answer = some e) :
      Chronicle here (.item [] p i) ms e
  | marker {here deeper p signal test ms answer}
      (check : CheckMoments here p.stepId (.marker signal) test ms answer) :
      Chronicle here (.inside deeper p (.marker signal test)) ms (.ofMarker p signal answer)
  | step {here deeper p id literal gate ms e} (step : StepMoments here id literal p.supplied ms e) :
      Chronicle here (.inside deeper p (.step id literal gate)) ms e
  | block {here deeper p items gate ms e} (body : Chronicle here (.body .nested deeper p.supplied items) ms e) :
      Chronicle here (.inside deeper p (.block items gate)) ms (e.ofBlock p)
  | loop {here deeper p test items gate ms e} (loop : Chronicle here (.loop test deeper p items) ms e) :
      Chronicle here (.inside deeper p (.loop test items gate)) ms e
  | body {here level resume supplied items w w' ms e ns f}
      (walk : Chronicle here (.walk (resume.headD 0) resume.tail ⟨supplied, ""⟩ items) ms e)
      (closes : CloseMoments level here e ns f) :
      Chronicle here (.body level resume supplied items)
        (.told (.opened level) { cursors := here ++ (resume.headD 0 :: resume.tail) } w w' :: (ms ++ ns)) f
  | body_missed {here level resume supplied items w fault w'} :
      Chronicle here (.body level resume supplied items)
        [.missed (.opened level) { cursors := here ++ (resume.headD 0 :: resume.tail) } w fault w'] (.error fault)
  | spent {here test resume p items} : Chronicle here (.loop test resume p items) [] (.error (.stopped .exhausted))
  | tested {here test p items ms answer e} (check : CheckMoments here p.stepId .test test ms answer)
      (ends : End.ofTest? p items.length answer = some e) : Chronicle here (.loop test [] p items) ms e
  | round {here test resume p items ms ns e q os f} (tested : TestMoments here p.stepId test resume ms)
      (body : Chronicle here (.body .nested resume p.supplied items) ns e) (again : e.again? p = some q)
      (rest : Chronicle here (.loop test [] q items) os f) :
      Chronicle here (.loop test resume p items) (ms ++ (ns ++ os)) f
  | round_end {here test resume p items ms ns e} (tested : TestMoments here p.stepId test resume ms)
      (body : Chronicle here (.body .nested resume p.supplied items) ns e) (ends : e.again? p = none) :
      Chronicle here (.loop test resume p items) (ms ++ ns) (e.ofLoop p)

/-- A moment at which something fails for good. -/
def Moment.Fails (fault : Fault) : Moment σ → Prop
  | .done d => d.Raises fault
  | .told _ _ _ _ => False
  | .missed _ _ _ raised _ => raised = fault

/-- Something failed for good, or the fuel was spent. -/
def Fails (fault : Fault) (ms : List (Moment σ)) : Prop := fault = .stopped .exhausted ∨ ∃ m ∈ ms, m.Fails fault

namespace Fails
variable {fault : Fault} {ms ns : List (Moment σ)}

theorem left (fails : Fails fault ms) : Fails fault (ms ++ ns) := by
  obtain spent | ⟨m, among, fails⟩ := fails
  · exact .inl spent
  · exact .inr ⟨m, List.mem_append_left ns among, fails⟩

theorem right (fails : Fails fault ns) : Fails fault (ms ++ ns) := by
  obtain spent | ⟨m, among, fails⟩ := fails
  · exact .inl spent
  · exact .inr ⟨m, List.mem_append_right ms among, fails⟩

theorem behind {m : Moment σ} (fails : Fails fault ms) : Fails fault (m :: ms) := by
  have fails : Fails fault ([m] ++ ms) := fails.right
  exact fails

theorem of_mem {m : Moment σ} (among : m ∈ ms) (fails : m.Fails fault) : Fails fault ms := .inr ⟨m, among, fails⟩

end Fails

theorem CheckMoments.fails {here stepId role c} {ms : List (Moment σ)} {fault}
    (check : CheckMoments here stepId role c ms (.error fault)) : Fails fault ms := by
  cases check with
  | missed => exact .of_mem (List.mem_cons_of_mem _ List.mem_cons_self) rfl
  | stopped => exact .of_mem List.mem_cons_self rfl

theorem StepMoments.fails {here id literal supplied} {ms : List (Moment σ)} {e fault}
    (step : StepMoments here id literal supplied ms e) (error : e = .error fault) : Fails fault ms := by
  cases step with
  | @told w outcome => cases outcome <;> cases error
  | missed =>
    cases error
    exact .of_mem (List.mem_cons_of_mem _ List.mem_cons_self) rfl
  | failed =>
    cases error
    exact .of_mem List.mem_cons_self rfl

theorem End.ofGate_error {p answer fault} (shut : End.ofGate? p answer = some (.error fault)) : answer = .error fault := by
  rcases answer with raised | halt | _ | _ <;> cases shut
  rfl

theorem End.ofTest_error {p size answer fault} (ends : End.ofTest? p size answer = some (.error fault)) :
    answer = .error fault := by
  rcases answer with raised | halt | _ | _ <;> cases ends
  rfl

theorem End.ofMarker_error {p signal answer fault} (ends : End.ofMarker p signal answer = .error fault) :
    answer = .error fault := by
  rcases answer with raised | halt | _ | _ <;> cases ends
  rfl

theorem End.ofBlock_error {p e fault} (ends : End.ofBlock p e = .error fault) : e = .error fault := by
  cases e with
  | error raised => exact ends
  | ok v => cases ends

theorem End.ofLoop_error {p e fault} (ends : End.ofLoop p e = .error fault) : e = .error fault := by
  cases e with
  | error raised => exact ends
  | ok v =>
    simp only [End.ofLoop] at ends
    split at ends <;> cases ends

/-- A part that fails does so at one of its moments, unless its fuel is spent. -/
theorem Chronicle.fails {here : List Int} {t : Part} {ms : List (Moment σ)} {e : End} {fault : Fault}
    (chronicle : Chronicle here t ms e) (error : e = .error fault) : Fails fault ms := by
  induction chronicle with
  | row_end => cases error
  | row_onward first rest ihFirst ihRest => exact (ihRest error).right
  | row_leave first ih => cases error
  | row_failed first ih => exact ih error
  | ahead ahead row ih => exact ih error
  | back back row again ihRow ihAgain => exact (ihAgain error).right
  | back_end back row ends ih => exact ih error
  | free free inside ih => exact ih error
  | opened gated gate inside ih => exact (ih error).right
  | shut gated gate shut =>
    subst error
    rw [End.ofGate_error shut] at gate
    exact gate.fails
  | marker check =>
    rw [End.ofMarker_error error] at check
    exact check.fails
  | step step => exact step.fails error
  | block body ih => exact ih (End.ofBlock_error error)
  | loop loop ih => exact ih error
  | @body here level resume supplied items w w' ms e ns f walk closes ih =>
    have within : Fails fault (ms ++ ns) := by
      cases closes with
      | told => cases error
      | missed =>
        cases error
        exact Fails.right (.of_mem List.mem_cons_self rfl)
      | failed => exact (ih error).left
    exact within.behind
  | body_missed =>
    cases error
    exact .of_mem List.mem_cons_self rfl
  | spent =>
    cases error
    exact .inl rfl
  | tested check ends =>
    subst error
    rw [End.ofTest_error ends] at check
    exact check.fails
  | round tested body again rest ihBody ihRest => exact (ihRest error).right.right
  | round_end tested body ends ih => exact (ih (End.ofLoop_error error)).right

/-- Some observed work logs moments of some kind, whatever it comes to. -/
def Logs (x : Work (σ × List (Moment σ)) α) (holds : List (Moment σ) → Except Fault α → Prop) : Prop :=
  ∀ w log, ∃ ms a w', x (w, log) = answered a (w', log ++ ms) ∧ holds ms a

namespace Logs
variable {holds : List (Moment σ) → Except Fault α → Prop} {other : List (Moment σ) → Except Fault β → Prop}

theorem pure {a : α} (now : holds [] (.ok a)) : Logs (Pure.pure a : Work (σ × List (Moment σ)) α) holds := by
  intro w log
  exact ⟨[], .ok a, w, by rw [List.append_nil]; rfl, now⟩

theorem throw {fault : Fault} (now : holds [] (.error fault)) :
    Logs (throwThe Fault fault : Work (σ × List (Moment σ)) α) holds := by
  intro w log
  exact ⟨[], .error fault, w, by rw [List.append_nil]; rfl, now⟩

theorem mono {x : Work (σ × List (Moment σ)) α} {wider : List (Moment σ) → Except Fault α → Prop}
    (logs : Logs x holds) (implies : ∀ ms a, holds ms a → wider ms a) : Logs x wider := by
  intro w log
  obtain ⟨ms, a, w', same, now⟩ := logs w log
  exact ⟨ms, a, w', same, implies ms a now⟩

theorem bind {x : Work (σ × List (Moment σ)) α} {k : α → Work (σ × List (Moment σ)) β} (first : Logs x holds)
    (rest : ∀ ms a, holds ms (.ok a) → Logs (k a) (fun ns b => other (ms ++ ns) b))
    (fails : ∀ ms fault, holds ms (.error fault) → other ms (.error fault)) : Logs (x >>= k) other := by
  intro w log
  obtain ⟨ms, a, w', begins, now⟩ := first w log
  rw [bind_of_eq begins]
  cases a with
  | error fault => exact ⟨ms, .error fault, w', rfl, fails ms fault now⟩
  | ok a =>
    obtain ⟨ns, b, w'', goes, then_⟩ := rest ms a now w' (log ++ ms)
    refine ⟨ms ++ ns, b, w'', ?_, then_⟩
    rw [answered_bind_ok, goes, List.append_assoc]

/-- What follows logs nothing. -/
theorem map {x : Work (σ × List (Moment σ)) α} {k : α → Work (σ × List (Moment σ)) β} (first : Logs x holds)
    (rest : ∀ ms a, holds ms (.ok a) → ∃ b, k a = Pure.pure b ∧ other ms (.ok b))
    (fails : ∀ ms fault, holds ms (.error fault) → other ms (.error fault)) : Logs (x >>= k) other := by
  apply first.bind _ fails
  intro ms a now
  obtain ⟨b, same, then_⟩ := rest ms a now
  rw [same]
  apply Logs.pure
  rwa [List.append_nil]

end Logs

section
variable {σ : Type} (host : Host σ)

theorem emit_logs (event : Event) (v : View) :
    Logs (host.observed.emit event v)
      (fun ms a => (∃ w w', ms = [.told event v w w'] ∧ a = .ok ()) ∨
        ∃ w fault w', ms = [.missed event v w fault w'] ∧ a = .error fault) := by
  intro w log
  cases told : host.emit event v w with
  | ok _ w' => exact ⟨_, .ok (), w', observed_told host w log told, .inl ⟨w, w', rfl, rfl⟩⟩
  | error fault w' => exact ⟨_, .error fault, w', observed_missed host w log told, .inr ⟨w, fault, w', rfl, rfl⟩⟩

theorem check_logs (here : List Int) (stepId : String) (role : Role) (c : Condition) :
    Logs (check host.observed here stepId role c) (CheckMoments here stepId role c) := by
  have asked : Logs (host.observed.check role c here)
      (fun ms a => ∃ w w', ms = [.done (.checked role c here w a w')]) := by
    intro w log
    obtain ⟨a, w', found⟩ := exists_answered (host.check role c here w)
    exact ⟨_, a, w', observed_check host w log a found, w, w', rfl⟩
  apply asked.bind
  · rintro ms answer ⟨w, w₁, rfl⟩
    cases answer with
    | error halt => exact .pure (.stopped nofun)
    | ok passed =>
      apply (emit_logs host _ _).map
      · rintro ns _ (⟨v, v', rfl, -⟩ | ⟨v, fault, v', -, impossible⟩)
        · exact ⟨_, rfl, .told⟩
        · cases impossible
      · rintro ns fault (⟨v, v', -, impossible⟩ | ⟨v, _, v', rfl, same⟩)
        · cases impossible
        · cases same
          exact .missed
  · rintro ms fault ⟨w, w₁, rfl⟩
    exact .stopped nofun

theorem runStep_logs (here : List Int) (p : Progress) (id : String) (literal : Value) :
    Logs (runStep host.observed here p id literal) (StepMoments here id literal p.supplied) := by
  have asked : Logs (host.observed.invoke id literal p.supplied here)
      (fun ms a => ∃ w w', ms = [.done (.invoked id literal p.supplied here w a w')]) := by
    intro w log
    obtain ⟨a, w', found⟩ := exists_answered (host.invoke id literal p.supplied here w)
    exact ⟨_, a, w', observed_invoke host w log a found, w, w', rfl⟩
  apply asked.bind
  · rintro ms outcome ⟨w, w₁, rfl⟩
    have told (b : Verdict) (same : End.ofOutcome id outcome = .ok b) :
        Logs (do
            host.observed.emit (.step id) { cursors := here, stepId := id, halt := outcome.halt? }
            return b)
          (fun ns e => StepMoments here id literal p.supplied
            ([.done (.invoked id literal p.supplied here w (.ok outcome) w₁)] ++ ns) e) := by
      apply (emit_logs host _ _).map
      · rintro ns _ (⟨v, v', rfl, -⟩ | ⟨v, fault, v', -, impossible⟩)
        · refine ⟨b, rfl, ?_⟩
          rw [← same]
          exact .told
        · cases impossible
      · rintro ns fault (⟨v, v', -, impossible⟩ | ⟨v, _, v', rfl, same⟩)
        · cases impossible
        · cases same
          exact .missed
    cases outcome with
    | done => exact told _ rfl
    | awaits halt => exact told _ rfl
    | failed halt => exact told _ rfl
  · rintro ms fault ⟨w, w₁, rfl⟩
    exact .failed

variable {host}

theorem runItem_logs {fuel : Nat} {here deeper : List Int} {p : Progress} {i : Item}
    (inside : Logs (enter host.observed fuel here deeper p i) (Chronicle here (.inside deeper p i))) :
    Logs (runItem host.observed fuel here deeper p i) (Chronicle here (.item deeper p i)) := by
  rw [runItem_eq]
  cases deeper with
  | cons cursor deeper => exact inside.mono (fun ms e => .free (.inl nofun))
  | nil =>
    rw [List.isEmpty_nil, if_pos rfl]
    cases gated : i.gate? with
    | none => exact inside.mono (fun ms e => .free (.inr gated))
    | some c =>
      apply (check_logs host here p.stepId .gate c).bind
      · intro ms answer gate
        rcases answer with halt | ⟨_ | _⟩
        · exact .pure (by rw [List.append_nil]; exact .shut gated gate rfl)
        · exact .pure (by rw [List.append_nil]; exact .shut gated gate rfl)
        · exact inside.mono (fun ns e => .opened gated gate)
      · intro ms fault gate
        exact .shut gated gate rfl

theorem runMarker_logs (here deeper : List Int) (p : Progress) (signal : Signal) (test : Condition) :
    Logs (runMarker host.observed here p signal test) (Chronicle here (.inside deeper p (.marker signal test))) := by
  apply (check_logs host here p.stepId (.marker signal) test).map
  · intro ms answer check
    rcases answer with halt | ⟨_ | _⟩
    · exact ⟨_, rfl, .marker check⟩
    · exact ⟨_, rfl, .marker check⟩
    · exact ⟨_, rfl, .marker check⟩
  · intro ms fault check
    exact .marker check

theorem walkRow_logs {here : List Int} {items : List Item}
    {walk : Int → Nat → List Int → Progress → Work (σ × List (Moment σ)) Verdict}
    (row : ∀ cursor skip deeper p, Logs (walk cursor skip deeper p) (Chronicle here (.row cursor deeper p (items.drop skip))))
    (start : Int) (deeper : List Int) (p : Progress) :
    Logs (walkRow items.length walk start deeper p) (Chronicle here (.walk start deeper p items)) := by
  unfold walkRow
  by_cases back : start < 0
  · rw [if_pos back]
    apply (row start (start + items.length).toNat deeper p).bind
    · intro ms v first
      cases v with
      | onward q => exact (row 0 0 [] q).mono (fun ns e => .back back first)
      | leave r => exact .pure (by rw [List.append_nil]; exact .back_end back first nofun)
    · intro ms fault first
      exact .back_end back first nofun
  · rw [if_neg back]
    exact (row start start.toNat deeper p).mono (fun ms e => .ahead (by omega))

theorem runRow_logs {level : Level} {here resume : List Int} {supplied : Value} {items : List Item}
    {walk : Int → Nat → List Int → Progress → Work (σ × List (Moment σ)) Verdict}
    (row : ∀ cursor skip deeper p, Logs (walk cursor skip deeper p) (Chronicle here (.row cursor deeper p (items.drop skip)))) :
    Logs (runRow host.observed level here resume supplied items.length walk)
      (fun ms r => ∃ e, Chronicle here (.body level resume supplied items) ms e ∧ r = e.map Verdict.report) := by
  apply (emit_logs host _ _).bind
  · rintro ms _ (⟨w, w', rfl, -⟩ | ⟨w, fault, w', -, impossible⟩)
    · have whole {ns os : List (Moment σ)} {e f : End}
          (walked : Chronicle here (.walk (resume.headD 0) resume.tail ⟨supplied, ""⟩ items) ns e)
          (closes : CloseMoments level here e os f) :
          ∃ g, Chronicle here (.body level resume supplied items)
            ([.told (.opened level) { cursors := here ++ (resume.headD 0 :: resume.tail) } w w'] ++ (ns ++ os)) g ∧
              f.map Verdict.report = g.map Verdict.report := by
        refine ⟨f, ?_, rfl⟩
        rw [List.singleton_append]
        exact .body walked closes
      apply (walkRow_logs row _ _ _).bind
      · intro ns v walked
        apply (emit_logs host _ _).map
        · rintro os _ (⟨u, u', rfl, -⟩ | ⟨u, fault, u', -, impossible⟩)
          · exact ⟨_, rfl, whole walked .told⟩
          · cases impossible
        · rintro os fault (⟨u, u', -, impossible⟩ | ⟨u, _, u', rfl, same⟩)
          · cases impossible
          · cases same
            exact whole walked .missed
      · intro ns fault walked
        have failed := whole walked .failed
        rwa [List.append_nil] at failed
    · cases impossible
  · rintro ms fault (⟨w, w', -, impossible⟩ | ⟨w, _, w', rfl, same⟩)
    · cases impossible
    · cases same
      exact ⟨.error fault, .body_missed, rfl⟩

theorem testRound_logs (here : List Int) (stepId : String) (test : Condition) (resume : List Int) :
    Logs (testRound host.observed here stepId test resume)
      (fun ms answer => resume = [] ∧ CheckMoments here stepId .test test ms answer ∨
        answer = .ok (.ok true) ∧ TestMoments here stepId test resume ms) := by
  cases resume with
  | nil => exact (check_logs host here stepId .test test).mono (fun ms answer check => .inl ⟨rfl, check⟩)
  | cons cursor deeper => exact .pure (.inr ⟨rfl, .resumed⟩)

theorem nextRound_logs {here : List Int} {test : Condition} {items : List Item}
    {body : List Int → Value → Work (σ × List (Moment σ)) Report} {fuel : Nat}
    (loop : ∀ p, Logs (iterate host.observed here test items.length body fuel [] p) (Chronicle here (.loop test [] p items)))
    {resume : List Int} {p : Progress} {ms ns : List (Moment σ)} {v : Verdict}
    (tested : TestMoments here p.stepId test resume ms)
    (round : Chronicle here (.body .nested resume p.supplied items) ns (.ok v)) :
    Logs (nextRound host.observed here test items.length body fuel p v.report)
      (fun os f => Chronicle here (.loop test resume p items) (ms ++ (ns ++ os)) f) := by
  have ends (same : End.again? p (.ok v) = none) {u : Verdict} (left : End.ofLoop p (.ok v) = .ok u) :
      Logs (Pure.pure u : Work (σ × List (Moment σ)) Verdict)
        (fun os f => Chronicle here (.loop test resume p items) (ms ++ (ns ++ os)) f) := by
    apply Logs.pure
    rw [List.append_nil, ← left]
    exact .round_end tested round same
  have goes {q : Progress} (same : End.again? p (.ok v) = some q) :
      Logs (iterate host.observed here test items.length body fuel [] q)
        (fun os f => Chronicle here (.loop test resume p items) (ms ++ (ns ++ os)) f) :=
    (loop q).mono (fun os f => .round tested round same)
  cases ending : v.report.ending with
  | passed =>
    simp only [nextRound, ending]
    exact goes (by simp only [End.again?, ending])
  | halted halt cursors =>
    simp only [nextRound, ending]
    exact ends (by simp only [End.again?, ending]) (by simp only [End.ofLoop, ending])
  | signalled signal =>
    cases signal with
    | breakLoop =>
      simp only [nextRound, ending]
      exact ends (by simp only [End.again?, ending]) (by simp only [End.ofLoop, ending])
    | continueLoop =>
      simp only [nextRound, ending]
      exact goes (by simp only [End.again?, ending])

theorem iterate_logs {here : List Int} {test : Condition} {items : List Item}
    {body : List Int → Value → Work (σ × List (Moment σ)) Report}
    (inside : ∀ resume supplied, Logs (body resume supplied)
      (fun ms r => ∃ e, Chronicle here (.body .nested resume supplied items) ms e ∧ r = e.map Verdict.report))
    (fuel : Nat) (resume : List Int) (p : Progress) :
    Logs (iterate host.observed here test items.length body fuel resume p) (Chronicle here (.loop test resume p items)) := by
  induction fuel generalizing resume p with
  | zero => exact .throw .spent
  | succ fuel ih =>
    rw [iterate_succ]
    have enters {ms : List (Moment σ)} (tested : TestMoments here p.stepId test resume ms) :
        Logs (body resume p.supplied >>= nextRound host.observed here test items.length body fuel p)
          (fun ns f => Chronicle here (.loop test resume p items) (ms ++ ns) f) := by
      apply (inside resume p.supplied).bind
      · rintro ns r ⟨e, round, same⟩
        cases e with
        | error fault => cases same
        | ok v =>
          cases same
          exact nextRound_logs (fun q => ih [] q) tested round
      · rintro ns fault ⟨e, round, same⟩
        cases e with
        | error raised =>
          cases same
          exact .round_end tested round rfl
        | ok v => cases same
    apply (testRound_logs here p.stepId test resume).bind
    · rintro ms answer (⟨rfl, check⟩ | ⟨same, tested⟩)
      · rcases answer with halt | ⟨_ | _⟩
        · exact .pure (by rw [List.append_nil]; exact .tested check rfl)
        · exact .pure (by rw [List.append_nil]; exact .tested check rfl)
        · exact enters (.checked check)
      · cases same
        exact enters tested
    · rintro ms fault (⟨rfl, check⟩ | ⟨impossible, -⟩)
      · exact .tested check rfl
      · cases impossible

mutual

theorem enter_logs (fuel : Nat) (here deeper : List Int) (p : Progress) : (i : Item) →
    Logs (enter host.observed fuel here deeper p i) (Chronicle here (.inside deeper p i))
  | .marker signal test => runMarker_logs here deeper p signal test
  | .step id literal gate => (runStep_logs host here p id literal).mono (fun ms e => .step)
  | .block items gate => by
    apply (runRow_logs (fun cursor skip inner q => runItems_logs fuel here cursor skip inner q items)).map
    · rintro ms r ⟨e, body, same⟩
      cases e with
      | error fault => cases same
      | ok v =>
        cases same
        exact ⟨_, rfl, .block body⟩
    · rintro ms fault ⟨e, body, same⟩
      cases e with
      | error raised =>
        cases same
        exact .block body
      | ok v => cases same
  | .loop test items gate =>
    (iterate_logs (fun _ _ => runRow_logs (fun cursor skip inner q =>
      runItems_logs fuel here cursor skip inner q items)) fuel deeper p).mono (fun ms e => .loop)

theorem runItems_logs (fuel : Nat) (here : List Int) (cursor : Int) (skip : Nat) (deeper : List Int) (p : Progress) :
    (items : List Item) → Logs (runItems host.observed fuel here cursor skip deeper p items)
      (Chronicle here (.row cursor deeper p (items.drop skip)))
  | [] => by
    rw [List.drop_nil]
    simp only [runItems]
    exact .pure .row_end
  | i :: rest => by
    cases skip with
    | succ skip =>
      simp only [runItems, List.drop_succ_cons]
      exact runItems_logs fuel here cursor skip deeper p rest
    | zero =>
      rw [runItems_cons, List.drop_zero]
      apply (runItem_logs (enter_logs fuel (here ++ [cursor]) deeper p i)).bind
      · intro ms v first
        cases v with
        | leave r => exact .pure (by rw [List.append_nil]; exact .row_leave first)
        | onward q =>
          have rest := runItems_logs fuel here (cursor + 1) 0 [] q rest
          exact rest.mono (fun ns e => .row_onward first)
      · intro ms fault first
        exact .row_failed first

end

end

/-- Whatever a traversal does and tells of, from wherever it goes on, is a chronicle of its schema. -/
theorem run_chronicle {σ : Type} (host : Host σ) (fuel : Nat) (level : Level) (schema : Schema) (position : List Int)
    (supplied : Value) (w : σ) :
    ∃ e w', Chronicle [] (.body level position supplied schema) (moments host fuel level schema position supplied w) e ∧
      run host fuel level schema position supplied w = answered (e.map Verdict.report) w' := by
  have logs : Logs (run host.observed fuel level schema position supplied)
      (fun ms r => ∃ e, Chronicle [] (.body level position supplied schema) ms e ∧ r = e.map Verdict.report) :=
    runRow_logs (fun cursor skip deeper p => runItems_logs fuel [] cursor skip deeper p schema)
  obtain ⟨ms, _, w', observed, e, chronicle, rfl⟩ := logs w []
  obtain ⟨a, v, plain, noted, -, -⟩ := run_observed host fuel level schema position supplied w
  obtain ⟨rfl, same⟩ := answered_inj (noted.symm.trans observed)
  obtain ⟨rfl, rfl⟩ := Prod.mk.inj same
  exact ⟨e, v, chronicle, plain⟩

end Workflow.Engine
