import Workflow.Proofs.Performance
import Workflow.Proofs.Positions

/-! Every traversal is accounted for by a program: unless its fuel is spent, there is a run of the program
with the same deeds and the same end. A traversal that goes on from a position is accounted for by what is
left of the program there. -/

namespace Workflow.Engine
open Script (Value)

/-- The fuel of some work is spent. -/
def Spent (r : EStateM.Result Fault σ α) : Prop := ∃ w, r = .error (.stopped .exhausted) w

/-- Unless its fuel is spent, some recorded work ends as told and adds its deeds to the log. -/
def Accounted (x : Work (σ × List (Deed σ)) α) (w : σ) (log : List (Deed σ))
    (told : List (Deed σ) → Except Fault α → σ → Prop) : Prop :=
  Spent (x (w, log)) ∨ ∃ ds a w', told ds a w' ∧ x (w, log) = answered a (w', log ++ ds)

namespace Accounted
variable {σ : Type} {x : Work (σ × List (Deed σ)) α} {w : σ} {log : List (Deed σ)}
  {told : List (Deed σ) → Except Fault α → σ → Prop}

theorem of_eq {a : Except Fault α} {ds : List (Deed σ)} {w' : σ}
    (same : x (w, log) = answered a (w', log ++ ds)) (holds : told ds a w') : Accounted x w log told :=
  .inr ⟨ds, a, w', holds, same⟩

theorem of_end {a : Except Fault α} (same : x (w, log) = answered a (w, log)) (holds : told [] a w) :
    Accounted x w log told :=
  .inr ⟨[], a, w, holds, by rw [same, List.append_nil]⟩

theorem mono (accounted : Accounted x w log told) {other : List (Deed σ) → Except Fault α → σ → Prop}
    (implies : ∀ ds a w', told ds a w' → other ds a w') : Accounted x w log other := by
  obtain spent | ⟨ds, a, w', holds, same⟩ := accounted
  · exact .inl spent
  · exact .inr ⟨ds, a, w', implies ds a w' holds, same⟩

theorem congr {y : Work (σ × List (Deed σ)) α} {ds : List (Deed σ)} {w' : σ}
    (same : x (w, log) = y (w', log ++ ds)) {other : List (Deed σ) → Except Fault α → σ → Prop}
    (rest : Accounted y w' (log ++ ds) (fun es a w'' => other (ds ++ es) a w'')) :
    Accounted x w log other := by
  obtain ⟨s, spent⟩ | ⟨es, a, w'', holds, ends⟩ := rest
  · exact .inl ⟨s, same.trans spent⟩
  · exact .inr ⟨ds ++ es, a, w'', holds, by rw [same, ends, List.append_assoc]⟩

theorem bind {k : α → Work (σ × List (Deed σ)) β} (first : Accounted x w log told)
    {other : List (Deed σ) → Except Fault β → σ → Prop}
    (rest : ∀ ds a w', told ds a w' →
      Accounted ((fun s => answered a s : Work _ α) >>= k) w' (log ++ ds)
        (fun es b w'' => other (ds ++ es) b w'')) :
    Accounted (x >>= k) w log other := by
  obtain ⟨s, spent⟩ | ⟨ds, a, w', holds, ends⟩ := first
  · exact .inl ⟨s, by simp [Bind.bind, EStateM.bind, spent]⟩
  · exact congr (bind_of_eq ends) (rest ds a w' holds)

end Accounted

section
variable {σ : Type} (host : Host σ)

theorem Checks.exists (here : Position) (stepId : String) (role : Role) (c : Condition) (w : σ) :
    ∃ ds answer w', Checks host.scene here stepId role c w ds answer w' := by
  cases asked : host.check role c here.cursors w with
  | error fault w₁ => exact ⟨_, _, _, .failed asked⟩
  | ok answer w₁ =>
    cases answer with
    | error halt => exact ⟨_, _, _, .halted asked⟩
    | ok passed =>
      cases told : host.emit (.checked role c passed) { cursors := here.cursors, stepId } w₁ with
      | ok _ w₂ => exact ⟨_, _, _, .told asked told⟩
      | error fault w₂ => exact ⟨_, _, _, .untold asked told⟩

theorem Invokes.exists (here : Position) (id : String) (literal supplied : Value) (w : σ) :
    ∃ ds f w', Invokes host.scene here id literal supplied w [] ds f w' := by
  cases asked : host.invoke id literal supplied here.cursors w with
  | error fault w₁ => exact ⟨_, _, _, .failed asked⟩
  | ok outcome w₁ =>
    cases told : host.emit (.step id)
      { cursors := here.cursors, stepId := id, halt := outcome.halt? } w₁ with
    | ok _ w₂ => exact ⟨_, _, _, .told asked told⟩
    | error fault w₂ => exact ⟨_, _, _, .untold asked told⟩

theorem Closes.exists (level : Level) (here : Position) (f : Finish) (w : σ) :
    ∃ g w', Closes host.scene level here f w g w' := by
  cases closing : f.closing level here with
  | none =>
    cases f <;> cases closing
    exact ⟨_, _, .failed⟩
  | some notice =>
    obtain ⟨event, v⟩ := notice
    cases told : host.emit event v w with
    | ok _ w' => exact ⟨_, _, .told closing told⟩
    | error fault w' => exact ⟨_, _, .untold closing told⟩

/-- A part of a program ends with a verdict. -/
def Ruled (here : Position) (t : Task) (w : σ) (ds : List (Deed σ)) (v : Except Fault Verdict) (w' : σ) :
    Prop :=
  ∃ f, Runs host.scene here t w [] ds f w' ∧ v = f.verdict

/-- A whole row ends with a report. -/
def Reported (here : Position) (t : Task) (w : σ) (ds : List (Deed σ)) (r : Except Fault Report) (w' : σ) :
    Prop :=
  ∃ f, Runs host.scene here t w [] ds f w' ∧ r = f.report

variable {host}

theorem item_accounted {fuel : Nat} {here : Position} {i : Item} {p : Progress}
    (inside : ∀ w log, Accounted (enter host.recorded fuel here.cursors [] p i) w log
      (Ruled host here (.inside i p) w)) (w : σ) (log : List (Deed σ)) :
    Accounted (runItem host.recorded fuel here.cursors [] p i) w log (Ruled host here (.item i p) w) := by
  rw [runItem_eq, List.isEmpty_nil, if_pos rfl]
  cases gated : i.gate? with
  | none =>
    refine (inside w log).mono ?_
    rintro ds _ w' ⟨f, runs, rfl⟩
    exact ⟨f, .free gated runs, rfl⟩
  | some c =>
    obtain ⟨ds, answer, w', checks⟩ := Checks.exists host here p.stepId .gate c w
    cases closed : Finish.ofGate? p answer with
    | some f => exact .of_eq (checks.shuts closed log) ⟨f, .closed gated checks closed, rfl⟩
    | none =>
      obtain rfl : answer = .ok (.ok true) := by
        rcases answer with fault | halt | ⟨_ | _⟩ <;> first | rfl | cases closed
      refine .congr (checks.opens log) ((inside w' (log ++ ds)).mono ?_)
      rintro es _ w'' ⟨f, runs, rfl⟩
      exact ⟨f, .opened gated checks runs, rfl⟩

theorem rest_accounted {fuel : Nat} {here : Position} {cursor : Nat} {items : List Item}
    (row : ∀ p w log, Accounted (runItems host.recorded fuel here.cursors (cursor + 1 : Nat) 0 [] p items)
      w log (Ruled host here (.row (cursor + 1) items p) w)) (f : Finish) (w : σ) (log : List (Deed σ)) :
    Accounted ((fun s => answered f.verdict s : Work _ Verdict) >>=
      follow host.recorded fuel here.cursors cursor items) w log (Ruled host here (.rest cursor items f) w) := by
  by_cases leaves : f.Leaves
  · exact .of_end (Finish.leave_follow leaves fuel _ _ _ _) ⟨f.under cursor, .leave leaves, rfl⟩
  · cases f with
    | onward p =>
      refine (row p w log).mono ?_
      rintro ds _ w' ⟨g, runs, rfl⟩
      exact ⟨g, .rest runs, rfl⟩
    | _ => exact absurd trivial leaves

theorem runRow_accounted {level : Level} {here : Position} {supplied : Value} {size : Nat}
    {walk : Int → Nat → List Int → Progress → Work (σ × List (Deed σ)) Verdict} {resume : List Int}
    (row whole : σ → List (Deed σ) → Finish → σ → Prop) (next : Nat) (deeper : Position)
    (start : resume.headD 0 = next) (tail : resume.tail = Position.cursors deeper)
    (walked : ∀ w log, Accounted (walk next next (Position.cursors deeper) ⟨supplied, ""⟩) w log
      (fun ds v w' => ∃ f, row w ds f w' ∧ v = f.verdict))
    (untold : ∀ w fault w', host.scene.told (.opened level)
      { cursors := here.cursors ++ Position.cursors (next :: deeper) } w (.error fault) w' →
      whole w [] (.failed fault) w')
    (told : ∀ w w₁ ds f w₂ g w₃, host.scene.told (.opened level)
      { cursors := here.cursors ++ Position.cursors (next :: deeper) } w (.ok ()) w₁ →
      row w₁ ds f w₂ → Closes host.scene level here f w₂ g w₃ → whole w ds g w₃)
    (w : σ) (log : List (Deed σ)) :
    Accounted (runRow host.recorded level here.cursors resume supplied size walk) w log
      (fun ds r w' => ∃ f, whole w ds f w' ∧ r = f.report) := by
  have place : here.cursors ++ (resume.headD 0 :: resume.tail) =
      here.cursors ++ Position.cursors (next :: deeper) := by
    rw [start, tail, Position.cursors_cons]
  cases opened : host.emit (.opened level)
    { cursors := here.cursors ++ Position.cursors (next :: deeper) } w with
  | error fault w' =>
    have failing : runRow host.recorded level here.cursors resume supplied size walk (w, log) =
        .error fault (w', log) := runRow_untold resume (by rw [place]; exact opened) log
    exact .inr ⟨[], _, w', ⟨_, untold w fault w' opened, rfl⟩, by rw [failing, List.append_nil]; rfl⟩
  | ok _ w₁ =>
    have entering : host.emit (.opened level) { cursors := here.cursors ++ (resume.headD 0 :: resume.tail) } w =
        .ok () w₁ := by
      rw [place]
      exact opened
    have walking : walkRow size walk (resume.headD 0) resume.tail ⟨supplied, ""⟩ =
        walk next next (Position.cursors deeper) ⟨supplied, ""⟩ := by
      rw [start, tail, walkRow_ahead]
    obtain ⟨s, spent⟩ | ⟨ds, _, w₂, ⟨f, rows, rfl⟩, same⟩ := walked w₁ log
    · refine .inl ⟨s, ?_⟩
      have noted := recorded_emit host w log (.ok ()) entering
      simp only [runRow]
      rw [bind_of_eq noted, answered_bind_ok, walking]
      simp only [Bind.bind, EStateM.bind, spent]
    · obtain ⟨g, w₃, closes⟩ := Closes.exists host level here f w₂
      refine .of_eq (closes.performed rfl entering ?_) ⟨g, told w w₁ ds f w₂ g w₃ opened rows closes, rfl⟩
      rw [walking]
      exact same

theorem body_accounted {fuel : Nat} {level : Level} {here : Position} {items : List Item} {supplied : Value}
    (row : ∀ p w log, Accounted (runItems host.recorded fuel here.cursors (0 : Nat) 0 [] p items) w log
      (Ruled host here (.row 0 items p) w)) (w : σ) (log : List (Deed σ)) :
    Accounted (runBody host.recorded fuel level here.cursors items [] supplied) w log
      (Reported host here (.body level items supplied) w) :=
  runRow_accounted (fun w ds f w' => Runs host.scene here (.row 0 items ⟨supplied, ""⟩) w [] ds f w')
    (fun w ds f w' => Runs host.scene here (.body level items supplied) w [] ds f w') 0 [] rfl rfl
    (row ⟨supplied, ""⟩) (fun _ _ _ untold => .body_untold untold)
    (fun _ _ _ _ _ _ _ told row closes => .body told row closes) w log

section
variable {fuel : Nat} {here : Position} {test : Condition} {items : List Item}

theorem rounds_accounted {n : Nat}
    (loop : ∀ p w log, Accounted (iterate host.recorded here.cursors test items.length
      (runBody host.recorded fuel .nested here.cursors items) n [] p) w log
      (Ruled host here (.loop test items p) w))
    (f : Finish) (p : Progress) (w : σ) (log : List (Deed σ)) :
    Accounted ((fun s => answered f.report s : Work _ Report) >>=
      nextRound host.recorded here.cursors test items.length
        (runBody host.recorded fuel .nested here.cursors items) n p) w log
      (Ruled host here (.rounds test items p f) w) := by
  cases again : f.again? p with
  | none =>
    exact .of_end (Finish.ended_round again _ _ _ _ _ _) ⟨f.ofLoop p, .ended again, rfl⟩
  | some q =>
    obtain ⟨s, spent⟩ | ⟨ds, _, w', ⟨g, runs, rfl⟩, same⟩ := loop q w log
    · exact .inl ⟨s, by rw [Finish.again_round again, spent]⟩
    · exact .of_eq (by rw [Finish.again_round again, same]) ⟨g, .again again runs, rfl⟩

theorem iterate_accounted
    (body : ∀ supplied w log, Accounted (runBody host.recorded fuel .nested here.cursors items [] supplied)
      w log (Reported host here (.body .nested items supplied) w))
    (n : Nat) (p : Progress) (w : σ) (log : List (Deed σ)) :
    Accounted (iterate host.recorded here.cursors test items.length
      (runBody host.recorded fuel .nested here.cursors items) n [] p) w log
      (Ruled host here (.loop test items p) w) := by
  induction n generalizing p w log with
  | zero => exact .inl ⟨(w, log), rfl⟩
  | succ n ih =>
    obtain ⟨ds, answer, w', checks⟩ := Checks.exists host here p.stepId .test test w
    cases ended : Finish.ofTest? p items.length answer with
    | some f => exact .of_eq (checks.ends ended log) ⟨f, .tested checks ended, rfl⟩
    | none =>
      obtain rfl : answer = .ok (.ok true) := by
        rcases answer with fault | halt | ⟨_ | _⟩ <;> first | rfl | cases ended
      rw [iterate_succ, testRound_fresh]
      refine .congr (bind_of_eq (checks.performed log)) ?_
      refine (body p.supplied w' (log ++ ds)).bind ?_
      rintro es _ w₂ ⟨f, runs, rfl⟩
      refine (rounds_accounted ih f p w₂ _).mono ?_
      rintro fs _ w₃ ⟨g, rounds, rfl⟩
      refine ⟨g, ?_, rfl⟩
      simpa only [List.append_assoc, List.append_nil] using Runs.iteration checks runs rounds

end

mutual

theorem enter_accounted (fuel : Nat) (here : Position) (p : Progress) (w : σ) (log : List (Deed σ)) :
    (i : Item) → Accounted (enter host.recorded fuel here.cursors [] p i) w log (Ruled host here (.inside i p) w)
  | .marker signal test => by
    obtain ⟨ds, answer, w', checks⟩ := Checks.exists host here p.stepId (.marker signal) test w
    exact .of_eq (checks.marks log) ⟨_, .marker checks, rfl⟩
  | .step id literal gate => by
    obtain ⟨ds, f, w', invokes⟩ := Invokes.exists host here id literal p.supplied w
    exact .of_eq (invokes.performed log) ⟨f, .step invokes, rfl⟩
  | .block items gate => by
    refine (body_accounted (fun q v l => runItems_accounted fuel here 0 q v l items) w log).bind ?_
    rintro ds _ w' ⟨f, runs, rfl⟩
    refine .of_end (Finish.ofBlock_report p f _) ⟨f.ofBlock p, ?_, rfl⟩
    rw [List.append_nil]
    exact .block runs
  | .loop test items gate => by
    refine (iterate_accounted (fun supplied v l => body_accounted (fun q v l =>
      runItems_accounted fuel here 0 q v l items) v l) fuel p w log).mono ?_
    rintro ds _ w' ⟨f, runs, rfl⟩
    exact ⟨f, .loop runs, rfl⟩

theorem runItems_accounted (fuel : Nat) (here : Position) (cursor : Nat) (p : Progress) (w : σ)
    (log : List (Deed σ)) :
    (items : List Item) → Accounted (runItems host.recorded fuel here.cursors cursor 0 [] p items) w log
      (Ruled host here (.row cursor items p) w)
  | [] => .of_end (by simp only [runItems]; rfl) ⟨_, .row_end, rfl⟩
  | i :: rest => by
    rw [runItems_cons]
    have place : here.cursors ++ [(cursor : Int)] = Position.cursors (here ++ [cursor]) := by simp
    rw [place]
    refine (item_accounted (fun v l => enter_accounted fuel (here ++ [cursor]) p v l i) w log).bind ?_
    rintro ds _ w' ⟨f, runs, rfl⟩
    refine (rest_accounted (fun q v l => runItems_accounted fuel here (cursor + 1) q v l rest) f w' _).mono ?_
    rintro es _ w'' ⟨g, follows, rfl⟩
    exact ⟨g, .row runs follows, rfl⟩

end

/-! Going on from a position. -/

/-- What is left of a part of a program ends with a verdict. -/
def Rejoined (host : Host σ) (here : Position) (t : Task) (position : Position) (w : σ) (ds : List (Deed σ))
    (v : Except Fault Verdict) (w' : σ) : Prop :=
  ∃ f, Resumes host.scene here t position w [] ds f w' ∧ v = f.verdict

theorem runItems_skip (host : Host τ) (fuel : Nat) (outer : List Int) (cursor : Int) (skip : Nat)
    (deeper : List Int) (p : Progress) (items : List Item) :
    runItems host fuel outer cursor skip deeper p items =
      runItems host fuel outer cursor 0 deeper p (items.drop skip) := by
  induction skip generalizing items with
  | zero => rfl
  | succ skip ih =>
    cases items with
    | nil => simp only [List.drop_nil, runItems]
    | cons i rest =>
      rw [List.drop_succ_cons, ← ih]
      simp only [runItems]

theorem Resumes.of_drop {s : Scene σ} {here : Position} {cursor next : Nat} {deeper : Position} {p w as ds f w'}
    (skip : Nat) (place : cursor + skip = next) {items : List Item} (within : skip ≤ items.length)
    (resumes : Resumes s here (.row next (items.drop skip) p) (next :: deeper) w as ds f w') :
    Resumes s here (.row cursor items p) (next :: deeper) w as ds f w' := by
  induction skip generalizing cursor items with
  | zero =>
    obtain rfl : cursor = next := place
    exact resumes
  | succ skip ih =>
    cases items with
    | nil => cases within
    | cons i rest => exact .later (by omega) (ih (by omega) (Nat.le_of_succ_le_succ within) resumes)

theorem row_rejoined {fuel : Nat} {here : Position} {items : List Item} {next : Nat}
    (within : next ≤ items.length) (p : Progress) (w : σ) (log : List (Deed σ)) :
    Accounted (runItems host.recorded fuel here.cursors next next [] p items) w log
      (Rejoined host here (.row 0 items p) [next] w) := by
  rw [runItems_skip]
  refine (runItems_accounted fuel here next p w log (items.drop next)).mono ?_
  rintro ds _ w' ⟨f, runs, rfl⟩
  exact ⟨f, .of_drop next (Nat.zero_add _) within (.row runs), rfl⟩

theorem row_rejoined_inside {fuel : Nat} {here : Position} {items : List Item} {next deep : Nat} {i : Item}
    {deeper : Position} (found : items[next]? = some i) {p : Progress}
    (item : ∀ w log, Accounted (runItem host.recorded fuel (Position.cursors (here ++ [next]))
      (Position.cursors (deep :: deeper)) p i) w log
      (Rejoined host (here ++ [next]) (.item i p) (deep :: deeper) w))
    (w : σ) (log : List (Deed σ)) :
    Accounted (runItems host.recorded fuel here.cursors next next (Position.cursors (deep :: deeper)) p items)
      w log (Rejoined host here (.row 0 items p) (next :: deep :: deeper) w) := by
  obtain ⟨within, rfl⟩ := List.getElem?_eq_some_iff.mp found
  have place : here.cursors ++ [(next : Int)] = Position.cursors (here ++ [next]) := by simp
  rw [runItems_skip, List.drop_eq_getElem_cons within, runItems_cons, place]
  refine (item w log).bind ?_
  rintro ds _ w' ⟨f, resumes, rfl⟩
  refine (rest_accounted (fun q v l => runItems_accounted fuel here (next + 1) q v l _) f w' _).mono ?_
  rintro es _ w'' ⟨g, follows, rfl⟩
  refine ⟨g, .of_drop next (Nat.zero_add _) (Nat.le_of_lt within) ?_, rfl⟩
  rw [List.drop_eq_getElem_cons within]
  exact .item resumes follows

theorem body_rejoined {fuel : Nat} {level : Level} {here : Position} {items : List Item} {next : Nat}
    {deeper : Position}
    (row : ∀ p w log, Accounted (runItems host.recorded fuel here.cursors next next deeper.cursors p items)
      w log (Rejoined host here (.row 0 items p) (next :: deeper) w))
    (supplied : Value) (w : σ) (log : List (Deed σ)) :
    Accounted (runBody host.recorded fuel level here.cursors items (Position.cursors (next :: deeper)) supplied)
      w log (fun ds r w' => ∃ f, Resumes host.scene here (.body level items supplied) (next :: deeper)
        w [] ds f w' ∧ r = f.report) :=
  runRow_accounted
    (fun w ds f w' => Resumes host.scene here (.row 0 items ⟨supplied, ""⟩) (next :: deeper) w [] ds f w')
    (fun w ds f w' => Resumes host.scene here (.body level items supplied) (next :: deeper) w [] ds f w')
    next deeper rfl rfl (row ⟨supplied, ""⟩) (fun _ _ _ untold => .body_untold untold)
    (fun _ _ _ _ _ _ _ told row closes => .body told row closes) w log

theorem item_rejoined {fuel : Nat} {here : Position} {i : Item} {items : List Item} {looped : Bool}
    {next : Nat} {deeper : Position} (row : i.row? = some (items, looped))
    (body : ∀ supplied w log, Accounted (runBody host.recorded fuel .nested here.cursors items
      (Position.cursors (next :: deeper)) supplied) w log
      (fun ds r w' => ∃ f, Resumes host.scene here (.body .nested items supplied) (next :: deeper)
        w [] ds f w' ∧ r = f.report))
    (p : Progress) (w : σ) (log : List (Deed σ)) :
    Accounted (runItem host.recorded fuel here.cursors (Position.cursors (next :: deeper)) p i) w log
      (Rejoined host here (.item i p) (next :: deeper) w) := by
  have ungated : (Position.cursors (next :: deeper)).isEmpty = false := rfl
  rw [runItem_eq, ungated, if_neg Bool.false_ne_true]
  simp only [whenOpen]
  cases i with
  | step => cases row
  | marker => cases row
  | block inner gate =>
    cases row
    refine (body p.supplied w log).bind ?_
    rintro ds _ w' ⟨f, resumes, rfl⟩
    refine .of_end (Finish.ofBlock_report p f _) ⟨f.ofBlock p, ?_, rfl⟩
    rw [List.append_nil]
    exact .block resumes
  | loop test inner gate =>
    cases row
    cases fuel with
    | zero => exact .inl ⟨(w, log), rfl⟩
    | succ fuel =>
      simp only [enter]
      rw [iterate_succ, testRound_resumed, pure_bind]
      refine (body p.supplied w log).bind ?_
      rintro ds _ w' ⟨f, resumes, rfl⟩
      refine (rounds_accounted (iterate_accounted (fun supplied v l => body_accounted (fun q v l =>
        runItems_accounted (fuel + 1) here 0 q v l _) v l) fuel) f p w' _).mono ?_
      rintro es _ w'' ⟨g, rounds, rfl⟩
      exact ⟨g, .loop resumes rounds, rfl⟩

/-- An item is gone on with from every position inside it that it admits. -/
theorem admitted_accounted {i : Item} {position : Position} (admits : i.Admits position) :
    ∀ {next deeper}, position = next :: deeper → ∀ (fuel : Nat) (here : Position) (p : Progress) (w : σ)
      (log : List (Deed σ)),
      Accounted (runItem host.recorded fuel here.cursors position.cursors p i) w log
        (Rejoined host here (.item i p) position w) := by
  induction admits with
  | here => nofun
  | parked row =>
    rintro _ _ ⟨⟩ fuel here p w log
    exact item_rejoined row (body_rejoined (fun q v l => row_rejoined (Nat.le_refl _) q v l)) p w log
  | @inside i items looped next j deeper row found admits ih =>
    rintro _ _ ⟨⟩ fuel here p w log
    refine item_rejoined row (body_rejoined ?_) p w log
    intro q v l
    cases deeper with
    | nil =>
      have within := (List.getElem?_eq_some_iff.mp found).1
      exact row_rejoined (Nat.le_of_lt within) q v l
    | cons deep deeper => exact row_rejoined_inside found (fun v l => ih rfl fuel (here ++ [next]) q v l) v l

/-- A schema is gone on with from every position that it admits. -/
theorem schema_rejoined {schema : Schema} {next : Nat} {deeper : Position}
    (admits : schema.Admits (next :: deeper)) (fuel : Nat) (level : Level) (supplied : Value) (w : σ)
    (log : List (Deed σ)) :
    Accounted (runBody host.recorded fuel level (Position.cursors []) schema
      (Position.cursors (next :: deeper)) supplied) w log
      (fun ds r w' => ∃ f, Resumes host.scene [] (.body level schema supplied) (next :: deeper)
        w [] ds f w' ∧ r = f.report) := by
  obtain ⟨i, found, admits⟩ := admits
  refine body_rejoined ?_ supplied w log
  intro q v l
  cases deeper with
  | nil =>
    have within := (List.getElem?_eq_some_iff.mp found).1
    exact row_rejoined (Nat.le_of_lt within) q v l
  | cons deep deeper =>
    exact row_rejoined_inside found (fun v l => admitted_accounted admits rfl fuel _ q v l) v l

end

end Workflow.Engine
