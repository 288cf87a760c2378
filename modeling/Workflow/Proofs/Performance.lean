import Workflow.Proofs.Program

/-! A program is performed by the traversal of its schema: whatever a program does on a host, the traversal
does with enough fuel, deed by deed. -/

namespace Workflow.Engine
open Script (Value)

namespace Finish

/-- How a traversal says that an item or a row ended so. -/
def verdict : Finish → Except Fault Verdict
  | .onward p => .ok (.onward p)
  | .signalled signal stepId => .ok (.leave ⟨stepId, .signalled signal⟩)
  | .halted halt position stepId => .ok (.leave ⟨stepId, .halted halt position.cursors⟩)
  | .failed fault => .error fault

def report (f : Finish) : Except Fault Report := f.verdict.map Verdict.report

@[simp] theorem verdict_onward (p : Progress) : (onward p).verdict = .ok (.onward p) := rfl

@[simp] theorem verdict_failed (fault : Fault) : (failed fault).verdict = .error fault := rfl

@[simp] theorem report_failed (fault : Fault) : (failed fault).report = .error fault := rfl

theorem closing_verdict {f : Finish} {v : Verdict} (level : Level) (here : Position)
    (same : f.verdict = .ok v) :
    f.closing level here = some (v.report.closing level here.cursors) := by
  cases f <;> cases same <;> rfl

end Finish

section
variable {σ : Type} (host : Host σ)

/-- What follows an item at a cursor. -/
def follow (fuel : Nat) (outer : List Int) (cursor : Int) (rest : List Item) : Verdict → Work σ Verdict
  | .onward q => runItems host fuel outer (cursor + 1) 0 [] q rest
  | .leave r => pure (.leave (r.under cursor))

def runBody (fuel : Nat) (level : Level) (here : List Int) (items : List Item) (resume : List Int)
    (supplied : Value) : Work σ Report :=
  runRow host level here resume supplied items.length
    (fun cursor skip inner q => runItems host fuel here cursor skip inner q items)

def nextRound (here : List Int) (test : Condition) (size : Nat)
    (body : List Int → Value → Work σ Report) (fuel : Nat) (p : Progress) (r : Report) : Work σ Verdict :=
  match r.ending with
  | .halted halt cursors => pure (.leave ⟨r.stepId, .halted halt cursors⟩)
  | .signalled .breakLoop => pure (.onward ⟨.nothing, lastStep p.stepId r.stepId⟩)
  | .signalled .continueLoop =>
    iterate host here test size body fuel [] ⟨.nothing, lastStep p.stepId r.stepId⟩
  | .passed => iterate host here test size body fuel [] ⟨.nothing, lastStep p.stepId r.stepId⟩

def enterRound (here : List Int) (test : Condition) (size : Nat)
    (body : List Int → Value → Work σ Report) (fuel : Nat) (resume : List Int) (p : Progress) :
    Except Halt Bool → Work σ Verdict
  | .error halt => pure (.leave ⟨p.stepId, .halted halt [(size : Int)]⟩)
  | .ok false => pure (.onward ⟨.nothing, p.stepId⟩)
  | .ok true => body resume p.supplied >>= nextRound host here test size body fuel p

/-- An item whose gate does not count. -/
def enter (fuel : Nat) (here deeper : List Int) (p : Progress) : Item → Work σ Verdict
  | .marker signal test => runMarker host here p signal test
  | .step id literal _ => runStep host here p id literal
  | .block items _ => do return leaveBlock p (← runBody host fuel .nested here items deeper p.supplied)
  | .loop test items _ =>
    iterate host here test items.length (runBody host fuel .nested here items) fuel deeper p

theorem runItem_eq (fuel : Nat) (here deeper : List Int) (p : Progress) (i : Item) :
    runItem host fuel here deeper p i =
      whenOpen host here p (if deeper.isEmpty then i.gate? else none) (enter host fuel here deeper p i) := by
  cases i with
  | marker signal test =>
    simp only [runItem, Item.gate?, ite_self]
    rfl
  | step id literal gate => simp only [runItem]; rfl
  | block items gate => simp only [runItem]; rfl
  | loop test items gate => simp only [runItem]; rfl

theorem runItems_cons (fuel : Nat) (outer : List Int) (cursor : Int) (deeper : List Int) (p : Progress)
    (i : Item) (rest : List Item) :
    runItems host fuel outer cursor 0 deeper p (i :: rest) =
      runItem host fuel (outer ++ [cursor]) deeper p i >>= follow host fuel outer cursor rest := by
  simp only [runItems]
  refine congrArg _ (funext fun v => ?_)
  cases v <;> rfl

theorem testRound_fresh (here : List Int) (stepId : String) (test : Condition) :
    testRound host here stepId test [] = check host here stepId .test test := rfl

theorem testRound_resumed (here : List Int) (stepId : String) (test : Condition) (next : Nat)
    (deeper : Position) :
    testRound host here stepId test (Position.cursors (next :: deeper)) = pure (.ok true) := rfl

theorem iterate_succ (here : List Int) (test : Condition) (size : Nat)
    (body : List Int → Value → Work σ Report) (fuel : Nat) (resume : List Int) (p : Progress) :
    iterate host here test size body (fuel + 1) resume p =
      testRound host here p.stepId test resume >>= enterRound host here test size body fuel resume p := by
  simp only [iterate]
  refine congrArg _ (funext fun v => ?_)
  rcases v with halt | ⟨_ | _⟩ <;> rfl

end

/-- A cursor that is not below zero is where the walk over its row starts. -/
theorem walkRow_ahead {size : Nat} {walk : Int → Nat → List Int → Progress → Work σ Verdict} (next : Nat)
    (deeper : List Int) (p : Progress) :
    walkRow size walk (next : Int) deeper p = walk next next deeper p := by
  unfold walkRow
  rw [if_neg (by omega), Int.toNat_natCast]

theorem bind_of_eq {x : Work τ α} {k : α → Work τ β} {s s' : τ} {a : Except Fault α}
    (same : x s = answered a s') : (x >>= k) s = ((fun s => answered a s : Work τ α) >>= k) s' := by
  cases a <;> simp_all [Bind.bind, EStateM.bind]

@[simp] theorem answered_bind_ok (a : α) (k : α → Work τ β) (s : τ) :
    ((fun s => answered (.ok a) s : Work τ α) >>= k) s = k a s := rfl

@[simp] theorem answered_bind_error (fault : Fault) (k : α → Work τ β) (s : τ) :
    ((fun s => answered (.error fault) s : Work τ α) >>= k) s = .error fault s := rfl

section
variable {σ : Type} {host : Host σ}

/-- A traversal does a part of a program at a position. `rounds` bounds the iterations of a loop that is
under way, and `fuel` those of the loops inside. -/
def Task.Done (host : Host τ) (fuel rounds : Nat) (here : Position) (s : τ) (f : Finish) (s' : τ) :
    Task → Prop
  | .row cursor items p => runItems host fuel here.cursors cursor 0 [] p items s = answered f.verdict s'
  | .rest cursor items g =>
    ((fun s => answered g.verdict s : Work τ Verdict) >>= follow host fuel here.cursors cursor items) s =
      answered f.verdict s'
  | .item i p => runItem host fuel here.cursors [] p i s = answered f.verdict s'
  | .inside i p => enter host fuel here.cursors [] p i s = answered f.verdict s'
  | .body level items supplied =>
    runBody host fuel level here.cursors items [] supplied s = answered f.report s'
  | .loop test items p =>
    iterate host here.cursors test items.length (runBody host fuel .nested here.cursors items) rounds [] p s =
      answered f.verdict s'
  | .rounds test items p g =>
    ((fun s => answered g.report s : Work τ Report) >>=
      nextRound host here.cursors test items.length (runBody host fuel .nested here.cursors items) rounds p) s =
      answered f.verdict s'

theorem Checks.performed {here stepId role c w ds answer w'}
    (checks : Checks host.scene here stepId role c w ds answer w') (log : List (Deed σ)) :
    check host.recorded here.cursors stepId role c (w, log) = answered answer (w', log ++ ds) := by
  cases checks with
  | told asked told =>
    have noted := recorded_check host w log (.ok (.ok _)) asked
    have heard (log : List (Deed σ)) := recorded_emit host _ log (.ok ()) told
    simp only [check, Bind.bind, EStateM.bind, noted, answered_ok, heard]
    rfl
  | untold asked untold =>
    have noted := recorded_check host w log (.ok (.ok _)) asked
    have heard (log : List (Deed σ)) := recorded_emit host _ log (.error _) untold
    simp only [check, Bind.bind, EStateM.bind, noted, answered_ok, heard, answered_error]
  | halted asked =>
    have noted := recorded_check host w log (.ok (.error _)) asked
    simp only [check, Bind.bind, EStateM.bind, noted, answered_ok]
    rfl
  | failed asked =>
    have noted := recorded_check host w log (.error _) asked
    simp only [check, Bind.bind, EStateM.bind, noted, answered_error]

theorem Invokes.performed {here id literal p w ds f w'}
    (invokes : Invokes host.scene here id literal p.supplied w [] ds f w') (log : List (Deed σ)) :
    runStep host.recorded here.cursors p id literal (w, log) = answered f.verdict (w', log ++ ds) := by
  cases invokes with
  | @told _ _ outcome _ _ asked told =>
    have noted := recorded_invoke host w log (.ok _) asked
    have heard (log : List (Deed σ)) := recorded_emit host _ log (.ok ()) told
    simp only [runStep, Bind.bind, EStateM.bind, noted, answered_ok]
    cases outcome
    all_goals
      simp only [Outcome.halt?] at heard
      simp only [EStateM.bind, heard]
      rfl
  | @untold _ _ outcome _ _ _ asked untold =>
    have noted := recorded_invoke host w log (.ok _) asked
    have heard (log : List (Deed σ)) := recorded_emit host _ log (.error _) untold
    simp only [runStep, Bind.bind, EStateM.bind, noted, answered_ok]
    cases outcome
    all_goals
      simp only [Outcome.halt?] at heard
      simp only [EStateM.bind, heard]
      rfl
  | failed asked =>
    have noted := recorded_invoke host w log (.error _) asked
    simp only [runStep, Bind.bind, EStateM.bind, noted, answered_error]
    rfl

theorem Closes.performed {level here f g} {w w₁ w₂ w₃ : σ} {ds log} {outer resume : List Int} {supplied size}
    {walk : Int → Nat → List Int → Progress → Work (σ × List (Deed σ)) Verdict}
    (place : here.cursors = outer)
    (told : host.emit (.opened level) { cursors := outer ++ (resume.headD 0 :: resume.tail) } w = .ok () w₁)
    (walked : walkRow size walk (resume.headD 0) resume.tail ⟨supplied, ""⟩ (w₁, log) =
      answered f.verdict (w₂, log ++ ds))
    (closes : Closes host.scene level here f w₂ g w₃) :
    runRow host.recorded level outer resume supplied size walk (w, log) =
      answered g.report (w₃, log ++ ds) := by
  have opened := recorded_emit host w log (.ok ()) told
  subst place
  simp only [runRow, Bind.bind, EStateM.bind, opened, walked, answered_ok]
  cases closes with
  | told closing told =>
    cases same : f.verdict with
    | error fault => cases f <;> simp_all [Finish.verdict, Finish.closing]
    | ok v =>
      rw [Finish.closing_verdict level here same, Option.some.injEq] at closing
      have heard := recorded_emit host _ (log ++ ds) (.ok ()) told
      simp only [answered_ok, closing, heard, Finish.report, same]
      rfl
  | untold closing untold =>
    cases same : f.verdict with
    | error fault => cases f <;> simp_all [Finish.verdict, Finish.closing]
    | ok v =>
      rw [Finish.closing_verdict level here same, Option.some.injEq] at closing
      have heard := recorded_emit host _ (log ++ ds) (.error _) untold
      simp only [answered_ok, closing, heard, answered_error]
      rfl
  | failed => rfl

theorem runRow_untold {level fault} {w w' : σ} {outer : List Int} (resume : List Int) {supplied size}
    {walk : Int → Nat → List Int → Progress → Work (σ × List (Deed σ)) Verdict}
    (untold : host.emit (.opened level) { cursors := outer ++ (resume.headD 0 :: resume.tail) } w =
      .error fault w') (log : List (Deed σ)) :
    runRow host.recorded level outer resume supplied size walk (w, log) = .error fault (w', log) := by
  have heard := recorded_emit host w log (.error fault) untold
  simp only [runRow, Bind.bind, EStateM.bind, heard, answered_error]

theorem Checks.opens {here c p act w ds w'}
    (checks : Checks host.scene here p.stepId .gate c w ds (.ok (.ok true)) w') (log : List (Deed σ)) :
    whenOpen host.recorded here.cursors p (some c) act (w, log) = act (w', log ++ ds) := by
  simp only [whenOpen]
  rw [bind_of_eq (checks.performed log)]
  rfl

theorem Checks.shuts {here c p act w ds answer f w'}
    (checks : Checks host.scene here p.stepId .gate c w ds answer w')
    (closed : Finish.ofGate? p answer = some f) (log : List (Deed σ)) :
    whenOpen host.recorded here.cursors p (some c) act (w, log) = answered f.verdict (w', log ++ ds) := by
  simp only [whenOpen]
  rw [bind_of_eq (checks.performed log)]
  rcases answer with fault | halt | ⟨_ | _⟩ <;> cases closed <;> rfl

theorem Checks.marks {here signal test p w ds answer w'}
    (checks : Checks host.scene here p.stepId (.marker signal) test w ds answer w') (log : List (Deed σ)) :
    runMarker host.recorded here.cursors p signal test (w, log) =
      answered (Finish.ofMarker p signal answer).verdict (w', log ++ ds) := by
  simp only [runMarker]
  rw [bind_of_eq (checks.performed log)]
  rcases answer with fault | halt | ⟨_ | _⟩ <;> rfl

theorem Checks.ends {here test p size body n w ds answer f w'}
    (checks : Checks host.scene here p.stepId .test test w ds answer w')
    (ended : Finish.ofTest? p size answer = some f) (log : List (Deed σ)) :
    iterate host.recorded here.cursors test size body (n + 1) [] p (w, log) =
      answered f.verdict (w', log ++ ds) := by
  rw [iterate_succ, testRound_fresh, bind_of_eq (checks.performed log)]
  rcases answer with fault | halt | ⟨_ | _⟩ <;> cases ended <;> rfl

theorem Finish.ofBlock_report (p : Progress) (f : Finish) (s : τ) :
    ((fun s => answered f.report s : Work τ Report) >>= fun r => pure (leaveBlock p r) : Work τ Verdict) s =
      answered (f.ofBlock p).verdict s := by
  cases f <;> rfl

theorem Finish.leave_follow {host : Host τ} {f : Finish} (leaves : f.Leaves) (fuel : Nat) (outer : List Int)
    (cursor : Nat) (rest : List Item) (s : τ) :
    ((fun s => answered f.verdict s : Work τ Verdict) >>= follow host fuel outer cursor rest) s =
      answered (f.under cursor).verdict s := by
  cases f with
  | onward p => exact leaves.elim
  | _ => rfl

theorem Finish.again_round {host : Host τ} {p q : Progress} {f : Finish} (again : f.again? p = some q)
    (here : List Int) (test : Condition) (size : Nat) (body : List Int → Value → Work τ Report) (n : Nat)
    (s : τ) :
    ((fun s => answered f.report s : Work τ Report) >>= nextRound host here test size body n p) s =
      iterate host here test size body n [] q s := by
  rcases f with q | ⟨signal, id⟩ | ⟨halt, position, id⟩ | fault
  · cases again; rfl
  · cases signal <;> cases again
    rfl
  · cases again
  · cases again

theorem Finish.ended_round {host : Host τ} {p : Progress} {f : Finish} (ended : f.again? p = none)
    (here : List Int) (test : Condition) (size : Nat) (body : List Int → Value → Work τ Report) (n : Nat)
    (s : τ) :
    ((fun s => answered f.report s : Work τ Report) >>= nextRound host here test size body n p) s =
      answered (f.ofLoop p).verdict s := by
  rcases f with q | ⟨signal, id⟩ | ⟨halt, position, id⟩ | fault
  · cases ended
  · cases signal <;> cases ended
    rfl
  · rfl
  · rfl

/-- What a program does on a host, the traversal does with enough fuel. -/
theorem Runs.performed {here t w as ds f w'} (runs : Runs host.scene here t w as ds f w') (alone : as = []) :
    ∃ n, ∀ fuel rounds, n ≤ fuel → n ≤ rounds → ∀ log : List (Deed σ),
      t.Done host.recorded fuel rounds here (w, log) f (w', log ++ ds) := by
  induction runs with
  | row_end => exact ⟨0, fun fuel rounds _ _ log => by simp only [Task.Done, runItems, List.append_nil]; rfl⟩
  | @row here cursor i items p w as ds f w₁ bs es g w₂ first rest ih next =>
    obtain ⟨rfl, rfl⟩ := List.append_eq_nil_iff.mp alone
    obtain ⟨n, first⟩ := ih rfl
    obtain ⟨m, rest⟩ := next rfl
    refine ⟨max n m, fun fuel rounds enough _ log => ?_⟩
    have item := first fuel fuel (by omega) (by omega) log
    have after := rest fuel fuel (by omega) (by omega) (log ++ ds)
    simp only [Task.Done, Position.cursors_append, Position.cursors_cons, Position.cursors_nil] at item after ⊢
    rw [runItems_cons, bind_of_eq item, after, List.append_assoc]
  | rest next ih =>
    obtain ⟨n, ih⟩ := ih alone
    exact ⟨n, fun fuel rounds enough _ log => ih fuel rounds enough (by omega) log⟩
  | leave leaves =>
    refine ⟨0, fun fuel rounds _ _ log => ?_⟩
    simp only [Task.Done, List.append_nil]
    exact Finish.leave_follow leaves fuel _ _ _ _
  | @free here i p w as ds f w' free inside ih =>
    obtain ⟨n, ih⟩ := ih alone
    refine ⟨n, fun fuel rounds enough last log => ?_⟩
    have inside := ih fuel rounds enough last log
    simp only [Task.Done] at inside ⊢
    rw [runItem_eq, List.isEmpty_nil, if_pos rfl, free]
    exact inside
  | @opened here i p c w ds w₁ as es f w₂ gated gate inside ih =>
    obtain ⟨n, ih⟩ := ih alone
    refine ⟨n, fun fuel rounds enough last log => ?_⟩
    have inside := ih fuel rounds enough last (log ++ ds)
    simp only [Task.Done] at inside ⊢
    rw [runItem_eq, List.isEmpty_nil, if_pos rfl, gated, gate.opens, inside, List.append_assoc]
  | closed gated gate closed =>
    refine ⟨0, fun fuel rounds _ _ log => ?_⟩
    simp only [Task.Done]
    rw [runItem_eq, List.isEmpty_nil, if_pos rfl, gated, gate.shuts closed]
  | marker marker => exact ⟨0, fun fuel rounds _ _ log => marker.marks log⟩
  | step step =>
    subst alone
    exact ⟨0, fun fuel rounds _ _ log => step.performed log⟩
  | block body ih =>
    obtain ⟨n, ih⟩ := ih alone
    refine ⟨n, fun fuel rounds enough last log => ?_⟩
    have body := ih fuel rounds enough last log
    simp only [Task.Done, enter] at body ⊢
    rw [bind_of_eq body, Finish.ofBlock_report]
  | loop loop ih =>
    obtain ⟨n, ih⟩ := ih alone
    exact ⟨n, fun fuel rounds enough _ log => ih fuel fuel enough enough log⟩
  | tested tested ended =>
    refine ⟨1, fun fuel rounds _ enough log => ?_⟩
    obtain ⟨rounds, rfl⟩ := Nat.exists_eq_add_of_le' enough
    exact tested.ends ended log
  | @iteration here test items p w ds w₁ as es f w₂ bs fs g w₃ tested body next ih ihNext =>
    obtain ⟨rfl, rfl⟩ := List.append_eq_nil_iff.mp alone
    obtain ⟨n, ih⟩ := ih rfl
    obtain ⟨m, ihNext⟩ := ihNext rfl
    refine ⟨max n m + 1, fun fuel rounds enough last log => ?_⟩
    obtain ⟨rounds, rfl⟩ := Nat.exists_eq_add_of_le' (show 1 ≤ rounds by omega)
    have body := ih fuel rounds (by omega) (by omega) (log ++ ds)
    have next := ihNext fuel rounds (by omega) (by omega) (log ++ ds ++ es)
    simp only [Task.Done] at body next ⊢
    rw [iterate_succ, testRound_fresh, bind_of_eq (tested.performed log), answered_bind_ok]
    simp only [enterRound]
    rw [bind_of_eq body, next]
    simp only [List.append_assoc]
  | again again loop ih =>
    obtain ⟨n, ih⟩ := ih alone
    refine ⟨n, fun fuel rounds enough last log => ?_⟩
    simp only [Task.Done]
    rw [Finish.again_round again]
    exact ih fuel rounds enough last log
  | ended ended =>
    refine ⟨0, fun fuel rounds _ _ log => ?_⟩
    simp only [Task.Done, List.append_nil]
    exact Finish.ended_round ended _ _ _ _ _ _
  | body told row closes ih =>
    obtain ⟨n, ih⟩ := ih alone
    refine ⟨n, fun fuel rounds enough last log => ?_⟩
    exact closes.performed rfl told (ih fuel rounds enough last log)
  | body_untold untold =>
    refine ⟨0, fun fuel rounds _ _ log => ?_⟩
    simp only [Task.Done, runBody, List.append_nil]
    exact runRow_untold [] untold log

/-- A traversal does what is left of a part of a program at a position. -/
def Task.Rejoined (host : Host τ) (fuel : Nat) (here position : Position) (s : τ) (f : Finish) (s' : τ) :
    Task → Prop
  | .row cursor items p =>
    runItems host fuel here.cursors (position.headD 0 : Nat) (position.headD 0 - cursor)
      (Position.cursors position.tail) p items s = answered f.verdict s'
  | .item i p => runItem host fuel here.cursors position.cursors p i s = answered f.verdict s'
  | .body level items supplied =>
    runBody host fuel level here.cursors items position.cursors supplied s = answered f.report s'
  | _ => False

/-- What is left of a program at a position, the traversal does from there. -/
theorem Resumes.performed {here t position w as ds f w'}
    (resumes : Resumes host.scene here t position w as ds f w') (alone : as = []) :
    ∃ n, ∀ fuel, n ≤ fuel → ∀ log : List (Deed σ),
      t.Rejoined host.recorded fuel here position (w, log) f (w', log ++ ds) := by
  induction resumes with
  | row row =>
    obtain ⟨n, row⟩ := row.performed alone
    refine ⟨n, fun fuel enough log => ?_⟩
    have row := row fuel fuel enough enough log
    simpa only [Task.Rejoined, Task.Done, List.headD_cons, List.tail_cons, Position.cursors_nil,
      Nat.sub_self] using row
  | @later here cursor i items p next deeper w as ds f w' later row ih =>
    obtain ⟨n, ih⟩ := ih alone
    refine ⟨n, fun fuel enough log => ?_⟩
    have row := ih fuel enough log
    obtain ⟨skip, rfl⟩ := Nat.exists_eq_add_of_lt later
    have shorter : cursor + skip + 1 - (cursor + 1) = skip := by omega
    have longer : cursor + skip + 1 - cursor = skip + 1 := by omega
    simp only [Task.Rejoined, List.headD_cons, shorter] at row
    simpa only [Task.Rejoined, List.headD_cons, longer, runItems] using row
  | @item here cursor i items p next deeper w as ds f w₁ bs es g w₂ item rest ih =>
    obtain ⟨rfl, rfl⟩ := List.append_eq_nil_iff.mp alone
    obtain ⟨n, ih⟩ := ih rfl
    obtain ⟨m, rest⟩ := rest.performed rfl
    refine ⟨max n m, fun fuel enough log => ?_⟩
    have item := ih fuel (by omega) log
    have after := rest fuel fuel (by omega) (by omega) (log ++ ds)
    simp only [Task.Rejoined, Task.Done, Position.cursors_append, Position.cursors_cons,
      Position.cursors_nil] at item after ⊢
    simp only [List.headD_cons, Nat.sub_self, List.tail_cons, Position.cursors_cons]
    rw [runItems_cons, bind_of_eq item, after, List.append_assoc]
  | @block here items gate p next deeper w as ds f w' body ih =>
    obtain ⟨n, ih⟩ := ih alone
    refine ⟨n, fun fuel enough log => ?_⟩
    have body := ih fuel enough log
    simp only [Task.Rejoined] at body ⊢
    rw [runItem_eq]
    simp only [Position.cursors_cons, List.isEmpty_cons, Bool.false_eq_true, if_false, whenOpen, enter]
    rw [← Position.cursors_cons, bind_of_eq body, Finish.ofBlock_report]
  | @loop here test items gate p next deeper w as ds f w₁ bs es g w₂ body rounds ih =>
    obtain ⟨rfl, rfl⟩ := List.append_eq_nil_iff.mp alone
    obtain ⟨n, ih⟩ := ih rfl
    obtain ⟨m, rounds⟩ := rounds.performed rfl
    refine ⟨max n m + 1, fun fuel enough log => ?_⟩
    obtain ⟨last, rfl⟩ := Nat.exists_eq_add_of_le' (show 1 ≤ fuel by omega)
    have body := ih (last + 1) (by omega) log
    have next := rounds (last + 1) last (by omega) (by omega) (log ++ ds)
    simp only [Task.Rejoined, Task.Done] at body next ⊢
    rw [runItem_eq]
    simp only [Position.cursors_cons, List.isEmpty_cons, Bool.false_eq_true, if_false, whenOpen, enter]
    rw [← Position.cursors_cons, iterate_succ, testRound_resumed, pure_bind]
    simp only [enterRound]
    rw [bind_of_eq body, next, List.append_assoc]
  | @body here level items supplied next deeper w w₁ as ds f w₂ g w₃ told row closes ih =>
    obtain ⟨n, ih⟩ := ih alone
    refine ⟨n, fun fuel enough log => ?_⟩
    have row := ih fuel enough log
    simp only [Task.Rejoined] at row ⊢
    refine closes.performed rfl told ?_
    simp only [Position.cursors_cons, List.headD_cons, List.tail_cons]
    rw [walkRow_ahead]
    exact row
  | @body_untold here level items supplied next deeper w fault w' untold =>
    refine ⟨0, fun fuel _ log => ?_⟩
    simp only [Task.Rejoined, runBody, List.append_nil]
    exact runRow_untold (next :: Position.cursors deeper) untold log

end

end Workflow.Engine
