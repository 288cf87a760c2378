import Workflow.Proofs.Waiting

/-! A program that asked and what is left of it at the position where it asked are, spliced together, one run
of the program in which the asking step is invoked again on the spot. -/

namespace Workflow.Engine
open Script (Value)

section
variable {σ : Type} {host : Host σ} {keeps : σ → σ → Prop}

/-! What a program does at once it also does where answers are waited for. -/

theorem Checks.waiting {here stepId role c w ds answer w'} (keeps : σ → σ → Prop)
    (checks : Checks host.scene here stepId role c w ds answer w') :
    Checks (host.waiting keeps) here stepId role c w ds answer w' := by
  cases checks with
  | told asked told => exact .told asked (.inl told)
  | untold asked untold => exact .untold asked (.inl untold)
  | halted asked => exact .halted asked
  | failed asked => exact .failed asked

theorem Invokes.waiting {here id literal supplied w as ds f w'} (keeps : σ → σ → Prop)
    (invokes : Invokes host.scene here id literal supplied w as ds f w') :
    Invokes (host.waiting keeps) here id literal supplied w as ds f w' := by
  cases invokes with
  | told asked told => exact .told asked (.inl told)
  | untold asked untold => exact .untold asked (.inl untold)
  | failed asked => exact .failed asked
  | again asked told waited => exact waited.elim

theorem Closes.waiting {level here f w g w'} (keeps : σ → σ → Prop)
    (closes : Closes host.scene level here f w g w') : Closes (host.waiting keeps) level here f w g w' := by
  cases closes with
  | told closing told => exact .told closing (.inl told)
  | untold closing untold => exact .untold closing (.inl untold)
  | failed => exact .failed

theorem Runs.waiting {here t w as ds f w'} (keeps : σ → σ → Prop) (runs : Runs host.scene here t w as ds f w') :
    Runs (host.waiting keeps) here t w as ds f w' := by
  induction runs with
  | row_end => exact .row_end
  | row _ _ first rest => exact .row first rest
  | rest _ next => exact .rest next
  | leave leaves => exact .leave leaves
  | free free _ inside => exact .free free inside
  | opened gated gate _ inside => exact .opened gated (gate.waiting keeps) inside
  | closed gated gate closed => exact .closed gated (gate.waiting keeps) closed
  | marker marker => exact .marker (marker.waiting keeps)
  | step step => exact .step (step.waiting keeps)
  | block _ body => exact .block body
  | loop _ loop => exact .loop loop
  | tested tested ended => exact .tested (tested.waiting keeps) ended
  | iteration tested _ _ body rounds => exact .iteration (tested.waiting keeps) body rounds
  | again again _ loop => exact .again again loop
  | ended ended => exact .ended ended
  | body told _ closes row => exact .body (.inl told) row (closes.waiting keeps)
  | body_untold untold => exact .body_untold (.inl untold)

theorem Finish.closing_continued {f : Finish} {level : Level} {here : Position} {event : Event} {v : View}
    (closing : f.closing level.continued here = some (event, v)) :
    ∃ event', f.closing level here = some (event', v) ∧ event'.continued = event := by
  have same : (level.continued != .nested) = (level != .nested) := by cases level <;> rfl
  cases f with
  | onward p =>
    simp only [Finish.closing, same] at closing ⊢
    cases closing
    exact ⟨_, rfl, rfl⟩
  | signalled signal stepId =>
    simp only [Finish.closing, same] at closing ⊢
    cases closing
    exact ⟨_, rfl, rfl⟩
  | halted halt position stepId =>
    cases closing
    exact ⟨_, rfl, rfl⟩
  | failed fault => cases closing

theorem Closes.continued {level here f w g w'} (keeps : σ → σ → Prop)
    (closes : Closes host.scene level.continued here f w g w') :
    Closes (host.waiting keeps) level here f w g w' := by
  cases closes with
  | told closing told =>
    obtain ⟨_, first, rfl⟩ := Finish.closing_continued closing
    exact .told first (.inr told)
  | untold closing untold =>
    obtain ⟨_, first, rfl⟩ := Finish.closing_continued closing
    exact .untold first (.inr untold)
  | failed => exact .failed

/-! Going on with a part of a program. -/

/-- What a call that brings an answer does of a part of a program that asked at a position in it. -/
def Task.Continues (host : Host σ) (here : Position) (answer : Value) (w : σ) (ds : List (Deed σ)) (f : Finish)
    (w' : σ) : Task → Position → Prop
  | .row cursor items _, position =>
    Resumes host.scene here (.row cursor items ⟨answer, ""⟩) position w [] ds f w'
  | .rest cursor items _, position =>
    Resumes host.scene here (.row (cursor + 1) items ⟨answer, ""⟩) position w [] ds f w'
  | .item i _, [] => Runs host.scene here (.item i ⟨answer, ""⟩) w [] ds f w'
  | .item i _, position => Resumes host.scene here (.item i ⟨answer, ""⟩) position w [] ds f w'
  | .inside i _, [] => Runs host.scene here (.inside i ⟨answer, ""⟩) w [] ds f w'
  | .inside i _, position => Resumes host.scene here (.item i ⟨answer, ""⟩) position w [] ds f w'
  | .body level items _, position =>
    Resumes host.scene here (.body level.continued items answer) position w [] ds f w'
  | .loop test items _, position => ∃ es g w₁ fs, ds = es ++ fs ∧
      Resumes host.scene here (.body .nested items answer) position w [] es g w₁ ∧
      Runs host.scene here (.rounds test items ⟨answer, ""⟩ g) w₁ [] fs f w'
  | .rounds test items _ _, position => ∃ es g w₁ fs, ds = es ++ fs ∧
      Resumes host.scene here (.body .nested items answer) position w [] es g w₁ ∧
      Runs host.scene here (.rounds test items ⟨answer, ""⟩ g) w₁ [] fs f w'

theorem Resumes.first {here cursor i items w as ds f w' answer} {deeper : Position} (p : Progress)
    (resumes : Resumes host.scene here (.row cursor (i :: items) ⟨answer, ""⟩) (cursor :: deeper) w as ds f w')
    (alone : as = []) :
    ∃ es g w₁ fs, ds = es ++ fs ∧
      (Task.item i p).Continues host (here ++ [cursor]) answer w es g w₁ deeper ∧
      Runs host.scene here (.rest cursor items g) w₁ [] fs f w' := by
  cases resumes with
  | row row =>
    cases row with
    | row first rest =>
      obtain ⟨rfl, rfl⟩ := List.append_eq_nil_iff.mp alone
      exact ⟨_, _, _, _, rfl, first, rest⟩
  | later later row => exact absurd later (Nat.lt_irrefl _)
  | item item rest =>
    obtain ⟨rfl, rfl⟩ := List.append_eq_nil_iff.mp alone
    exact ⟨_, _, _, _, rfl, item, rest⟩

theorem Resumes.behind {here : Position} {cursor next : Nat} {i items p w as ds f w'} {deeper : Position}
    (resumes : Resumes host.scene here (.row cursor (i :: items) p) ((cursor + 1 + next) :: deeper) w as ds f w') :
    Resumes host.scene here (.row (cursor + 1) items p) ((cursor + 1 + next) :: deeper) w as ds f w' := by
  generalize place : cursor + 1 + next = head at resumes
  cases resumes with
  | row row => omega
  | later later row => exact row
  | item item rest => omega

/-- The last of some deeds is an invocation that asks. -/
def Asked (ds : List (Deed σ)) : Prop := ∃ before d halt, ds = before ++ [d] ∧ d.Asks halt

theorem Asked.of_append (ds : List (Deed σ)) {es : List (Deed σ)} (asked : Asked (ds ++ es)) (present : es ≠ []) :
    Asked es := by
  obtain ⟨before, d, halt, same, asks⟩ := asked
  have ending := List.dropLast_concat_getLast present
  rw [← ending, ← List.append_assoc] at same
  obtain ⟨-, last⟩ := List.append_inj' same rfl
  rw [List.cons.injEq] at last
  exact ⟨es.dropLast, d, halt, by rw [← last.1, ending], asks⟩

theorem Asked.of_singleton {d : Deed σ} (asked : Asked [d]) : ∃ halt, d.Asks halt := by
  obtain ⟨before, e, halt, same, asks⟩ := asked
  obtain ⟨-, last⟩ := List.append_inj' (show [] ++ [d] = before ++ [e] from same) rfl
  cases last
  exact ⟨halt, asks⟩

theorem Checks.not_asked {s : Scene σ} {here stepId role c w ds answer w'}
    (checks : Checks s here stepId role c w ds answer w') : ¬ Asked ds := by
  intro asked
  cases checks
  all_goals
    obtain ⟨halt, asks⟩ := asked.of_singleton
    exact asks

theorem HaltedBy.ne_nil {holds : Query → Prop} {place : Position} {ds : List (Deed σ)} {halt stepId}
    (halted : HaltedBy holds place ds halt stepId) : ds ≠ [] := by
  obtain ⟨before, d, rfl, -⟩ := halted
  simp

/-- A step that asked is invoked again with the answer. -/
theorem Invokes.splice {here id literal supplied w as ds halt position stepId w' answer w₂ es f w₃}
    (invokes : Invokes (host.waiting keeps) here id literal supplied w as ds (.halted halt position stepId) w')
    (asked : Asked ds) (idles : Idles host keeps w' w₂)
    (rest : Invokes host.scene here id literal answer w₂ [] es f w₃) :
    Invokes (host.waiting keeps) here id literal supplied w (as ++ [answer]) (ds ++ es) f w₃ := by
  generalize ends : Finish.halted halt position stepId = g at invokes
  induction invokes with
  | @told supplied w outcome w₁ w₂ was told =>
    cases outcome with
    | done => cases ends
    | awaits halt' => exact .again was told idles (rest.waiting keeps)
    | failed halt' =>
      obtain ⟨halt, asks⟩ := asked.of_singleton
      exact asks.elim
  | untold => cases ends
  | failed => cases ends
  | @again supplied w halt' w₁ w₂ w₃ given answers ds f w₄ was told waited next ih =>
    have present : ds ≠ [] := by cases next <;> simp
    exact .again was told waited (ih (Asked.of_append [_] asked present) idles ends)

theorem Task.Continues.item_ne_nil {here answer w ds f w' i p position q} (tells : host.Tells)
    (continues : (Task.item i p).Continues host here answer w ds f w' position) (holds : i.Holds position q) :
    ds ≠ [] := by
  cases position with
  | nil =>
    obtain ⟨d, rest, rfl, -⟩ := Runs.opening tells continues holds
    simp
  | cons next deeper =>
    obtain ⟨d, rest, rfl, -⟩ := Resumes.opening tells continues rfl holds
    simp

theorem body_ne_nil {here level items answer w ds f w' position q} (tells : host.Tells)
    (resumes : Resumes host.scene here (.body level items answer) position w [] ds f w')
    (holds : Schema.Holds items q position) : ds ≠ [] := by
  obtain ⟨d, rest, rfl, -⟩ := resumes.opening tells rfl holds
  simp

theorem Finish.halted_or (f : Finish) : (∃ halt position stepId, f = .halted halt position stepId) ∨
    ∀ halt position stepId, f ≠ .halted halt position stepId := by
  cases f with
  | halted halt position stepId => exact .inl ⟨halt, position, stepId, rfl⟩
  | onward => exact .inr nofun
  | signalled => exact .inr nofun
  | failed => exact .inr nofun

theorem gateAt?_first (cursor : Nat) (i : Item) (items : List Item) (p : Progress) (deeper : Position) :
    (Task.row cursor (i :: items) p).gateAt? (cursor :: deeper) = i.gateAt? deeper := by
  simp [Task.gateAt?, Schema.gateAt?]

theorem gateAt?_behind (cursor next : Nat) (i : Item) (items : List Item) (p : Progress) (f : Finish)
    (deeper : Position) :
    (Task.row cursor (i :: items) p).gateAt? ((cursor + 1 + next) :: deeper) =
      (Task.rest cursor items f).gateAt? ((cursor + 1 + next) :: deeper) := by
  have far : cursor + 1 + next - cursor = next + 1 := by omega
  have near : cursor + 1 + next - (cursor + 1) = next := by omega
  simp only [Task.gateAt?, far, near, Schema.gateAt?, List.getElem?_cons_succ]

/-- What is told of an interrupted row belongs to the pause. -/
theorem Closes.idles {level here halt position stepId g} {w w' w'' : σ}
    (closes : Closes (host.waiting keeps) level here (.halted halt position stepId) w g w')
    (idles : Idles host keeps w' w'') (same : g = .halted halt position stepId) : Idles host keeps w w'' := by
  subst same
  cases closes with
  | told closing told =>
    cases closing
    rcases told with told | told
    · exact .told (show Event.Pauses (.interrupted level) from trivial) told idles
    · exact .told (show Event.Pauses (.interrupted level.continued) from trivial) told idles

theorem Finish.Touched.block {f : Finish} (touched : f.Touched) (p : Progress) : (f.ofBlock p).Touched := by
  cases f with
  | onward => exact lastStep_touched (.inr touched)
  | signalled => exact lastStep_touched (.inr touched)
  | halted => trivial
  | failed => trivial

theorem Runs.free_inside {s : Scene σ} {here i p w as ds f w'} (runs : Runs s here (.item i p) w as ds f w')
    (free : i.gate? = none) : Runs s here (.inside i p) w as ds f w' := by
  cases runs with
  | free _ inside => exact inside
  | opened gated => cases free.symm.trans gated
  | closed gated => cases free.symm.trans gated

/-- A gate that holds again is part of the pause. -/
theorem Runs.reopened {here i p c w ds es f w'} (tells : host.Tells) (gated : i.gate? = some c)
    (runs : Runs host.scene here (.item i p) w [] ds f w') (reopens : Reopens keeps (some c) ds es) :
    ∃ w₁, Idles host keeps w w₁ ∧ Runs host.scene here (.inside i p) w₁ [] es f w' := by
  obtain ⟨place, before, after, same, kept⟩ := reopens
  cases runs with
  | free free => cases free.symm.trans gated
  | closed gated' gate closed =>
    obtain ⟨after', rfl⟩ := gate.deed tells
    cases same
    cases closed
  | opened gated' gate inside =>
    cases gate with
    | told asked told =>
      cases same
      exact ⟨_, .kept kept (.told (show Event.Pauses (.checked .gate _ true) from trivial) told .still), inside⟩

theorem Resumes.loop_parts {here test items gate w as ds f w' answer position} (p : Progress)
    (resumes : Resumes host.scene here (.item (.loop test items gate) ⟨answer, ""⟩) position w as ds f w')
    (alone : as = []) : (Task.loop test items p).Continues host here answer w ds f w' position := by
  cases resumes with
  | loop body rounds =>
    obtain ⟨rfl, rfl⟩ := List.append_eq_nil_iff.mp alone
    exact ⟨_, _, _, _, rfl, body, rounds⟩

/-- A program that asked, and what a call with the answer does of it, are one run of the program. -/
theorem Runs.splice {here t w as ds f w' answer} (tells : host.Tells)
    (runs : Runs (host.waiting keeps) here t w as ds f w') (named : t.Named) {halt position stepId}
    (ends : f = .halted halt position stepId)
    (fresh : ∀ g, t.pending? = some g → ∀ halt position stepId, g ≠ .halted halt position stepId)
    (asked : Asked ds) {w₂ es fs g w₃} (idles : Idles host keeps w' w₂)
    (continues : t.Continues host here answer w₂ es g w₃ position)
    (reopens : Reopens keeps (t.gateAt? position) es fs) :
    g.Touched ∧ Runs (host.waiting keeps) here t w (as ++ [answer]) (ds ++ fs) g w₃ := by
  -- By induction on the run that asked. The question lies in the last part of it; what came before that part
  -- stays as it is, and what the call with the answer does behind it is put in its place.
  induction runs generalizing halt position stepId w₂ es fs g w₃ with
  | row_end => cases ends
  | @row here cursor i items p w as ds f w₁ bs ds' f' w' first rest ih next =>
    obtain ⟨halt', deeper, id, rfl⟩ | going := f.halted_or
    · cases rest with
      | leave leaves =>
        -- The first item asked, so nothing of the row was run behind it.
        cases ends
        rw [List.append_nil] at asked
        obtain ⟨es, g₁, w₄, es', rfl, inside, behind⟩ := continues.first p rfl
        obtain ⟨before, d, -, -, stands, -⟩ := first.halted rfl (Task.not_pending rfl)
        rw [gateAt?_first] at reopens
        obtain ⟨fs, reopened, rfl⟩ := Reopens.split (inside.item_ne_nil tells stands) reopens
        obtain ⟨touched, spliced⟩ := ih named.1 rfl (Task.not_pending rfl) asked idles inside reopened
        have whole := Runs.row spliced (behind.waiting keeps)
        rw [List.append_nil, List.append_assoc] at whole
        rw [List.append_nil, List.append_nil]
        exact ⟨behind.touched named.2 touched, whole⟩
    · have fresh : ∀ g, (Task.rest cursor items f).pending? = some g →
          ∀ halt position stepId, g ≠ .halted halt position stepId := by
        rintro _ ⟨⟩
        exact going
      have halted := rest.halted ends fresh
      have asked := asked.of_append ds halted.ne_nil
      obtain ⟨before, d, -, -, ⟨skip, deeper, rfl, stands⟩, -⟩ := halted
      rw [gateAt?_behind cursor skip i items p f] at reopens
      obtain ⟨touched, spliced⟩ := next named.2 ends fresh asked idles (Resumes.behind continues) reopens
      rw [List.append_assoc, List.append_assoc]
      exact ⟨touched, .row first spliced⟩
  | rest _ ih =>
    obtain ⟨touched, spliced⟩ :=
      ih named ends (Task.not_pending rfl) asked idles continues (by cases position <;> exact reopens)
    exact ⟨touched, .rest spliced⟩
  | @leave here cursor items f w leaves =>
    obtain ⟨halt', deeper, id, rfl⟩ | going := f.halted_or
    · exact absurd rfl (fresh _ rfl halt' deeper id)
    · cases f <;> cases ends
      exact absurd rfl (going _ _ _)
  | @free here i p w as ds f w' free inside ih =>
    have again : (Task.inside i p).Continues host here answer w₂ es g w₃ position := by
      cases position with
      | nil => exact Runs.free_inside continues free
      | cons => exact continues
    have reopened : Reopens keeps ((Task.inside i p).gateAt? position) es fs := by
      cases position with
      | nil =>
        rw [Task.gateAt?, Item.gateAt?_nil, free] at reopens
        exact reopens
      | cons => exact reopens
    obtain ⟨touched, spliced⟩ := ih named ends (Task.not_pending rfl) asked idles again reopened
    exact ⟨touched, .free free spliced⟩
  | @opened here i p c w ds w₁ as ds' f w' gated gate inside ih =>
    have asked := asked.of_append ds (inside.halted ends (Task.not_pending rfl)).ne_nil
    rw [List.append_assoc]
    cases position with
    | nil =>
      -- The step with this gate asked: only here is the gate checked again.
      rw [Task.gateAt?, Item.gateAt?_nil, gated] at reopens
      obtain ⟨w₄, pause, again⟩ := Runs.reopened tells gated continues reopens
      obtain ⟨touched, spliced⟩ := ih named ends (Task.not_pending rfl) asked (idles.trans pause) again rfl
      exact ⟨touched, .opened gated gate spliced⟩
    | cons next deeper =>
      obtain ⟨touched, spliced⟩ := ih named ends (Task.not_pending rfl) asked idles continues reopens
      exact ⟨touched, .opened gated gate spliced⟩
  | closed gated gate closed => exact absurd asked gate.not_asked
  | marker marker => exact absurd asked marker.not_asked
  | @step here id literal gate p w as ds f w' step =>
    subst ends
    obtain ⟨rfl, -⟩ := step.halted (fun q => q = .invoke id literal) rfl
    cases continues with
    | step again =>
      cases reopens
      exact ⟨again.touched named, .step (step.splice asked idles again)⟩
  | @block here items gate p w as ds f w' body ih =>
    cases f <;> cases ends
    obtain ⟨before, d, -, -, stands, -⟩ := body.halted rfl (Task.not_pending rfl)
    cases position with
    | nil => exact stands.elim
    | cons next deeper =>
      cases continues with
      | block again =>
        rw [Task.gateAt?, Item.gateAt?_cons rfl] at reopens
        obtain ⟨touched, spliced⟩ := ih named rfl (Task.not_pending rfl) asked idles again reopens
        have whole : Runs (host.waiting keeps) here (.inside (.block items gate) p) _ _ _ _ _ := .block spliced
        rw [touched.ofBlock p ⟨answer, ""⟩] at whole
        exact ⟨touched.block _, whole⟩
  | @loop here test items gate p w as ds f w' loop ih =>
    cases position with
    | nil =>
      obtain ⟨before, d, -, -, stands | ⟨missing, -⟩, -⟩ := loop.halted ends (Task.not_pending rfl)
      · exact stands.elim
      · cases missing
    | cons next deeper =>
      rw [Task.gateAt?, Item.gateAt?_cons rfl] at reopens
      obtain ⟨touched, spliced⟩ :=
        ih named ends (Task.not_pending rfl) asked idles (Resumes.loop_parts p continues rfl) reopens
      exact ⟨touched, .loop spliced⟩
  | tested tested ended => exact absurd asked tested.not_asked
  | @iteration here test items p w ds w₁ as ds' f w₅ bs ds'' f' w' tested body rounds ih next =>
    obtain ⟨halt', deeper, id, rfl⟩ | going := f.halted_or
    · cases rounds with
      | again again => cases again
      | ended ended =>
        cases ends
        rw [List.append_nil] at asked
        have halted := body.halted rfl (Task.not_pending rfl)
        have asked := asked.of_append ds halted.ne_nil
        obtain ⟨before, d, -, -, stands, -⟩ := halted
        obtain ⟨es, g₁, w₄, es', rfl, again, behind⟩ := continues
        -- The rounds behind the iteration are the same, whatever step was touched before it.
        obtain ⟨fs, reopened, rfl⟩ := Reopens.split (body_ne_nil tells again stands) reopens
        obtain ⟨touched, spliced⟩ := ih named rfl (Task.not_pending rfl) asked idles again reopened
        have whole := Runs.iteration tested spliced ((behind.rounds_congr touched p).waiting keeps)
        simp only [List.append_nil, List.append_assoc] at whole ⊢
        exact ⟨behind.touched named (.inr touched), whole⟩
    · have fresh : ∀ g, (Task.rounds test items p f).pending? = some g →
          ∀ halt position stepId, g ≠ .halted halt position stepId := by
        rintro _ ⟨⟩
        exact going
      have asked := asked.of_append (ds ++ ds') (rounds.halted ends fresh).ne_nil
      obtain ⟨touched, spliced⟩ := next named ends fresh asked idles continues reopens
      rw [List.append_assoc, List.append_assoc]
      exact ⟨touched, .iteration tested body spliced⟩
  | again again loop ih =>
    obtain ⟨touched, spliced⟩ := ih named ends (Task.not_pending rfl) asked idles continues reopens
    exact ⟨touched, .again again spliced⟩
  | @ended here test items p f w ended =>
    obtain ⟨halt', deeper, id, rfl⟩ | going := f.halted_or
    · exact absurd rfl (fresh _ rfl halt' deeper id)
    · rcases f with q | ⟨⟨⟩, id⟩ | _ | fault <;> cases ends
      exact absurd rfl (going _ _ _)
  | @body here level items supplied w w₁ as ds f w₅ f' w' told row closes ih =>
    obtain rfl := closes.halted ends
    cases continues with
    | body_untold untold => exact absurd untold (tells.told (fun _ same => by cases same))
    | body opened again closes' =>
      have pause := idles.trans (.told (show Event.Pauses (.opened level.continued) from trivial) opened .still)
      obtain ⟨touched, spliced⟩ := ih named rfl (Task.not_pending rfl) asked (closes.idles pause ends) again reopens
      exact ⟨closes'.touched touched, .body told spliced (closes'.continued keeps)⟩
  | body_untold => cases ends

end

end Workflow.Engine
