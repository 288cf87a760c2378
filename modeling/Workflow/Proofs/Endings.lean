import Workflow.Proofs.Positions

/-! How programs end. One that halts does so with the last of its deeds, at the position where that stands in
the schema. One that fails was failed by the last of its deeds, or by what it told of. -/

namespace Workflow.Engine
open Script (Value)

section
variable {σ : Type}

/-- The last of some deeds halts a program on some terms, at the place where it was done. It is about
something that stands where it is looked for, and a step that halts is the last one touched. -/
def HaltedBy (holds : Query → Prop) (place : Position) (ds : List (Deed σ)) (halt : Halt) (stepId : String) :
    Prop :=
  ∃ before d, ds = before ++ [d] ∧ d.Halts halt ∧ holds d.query ∧ d.At place.cursors ∧
    ∀ id literal, d.query = .invoke id literal → stepId = id

theorem HaltedBy.mono {holds other : Query → Prop} {place : Position} {ds : List (Deed σ)} {halt stepId}
    (halted : HaltedBy holds place ds halt stepId) (implies : ∀ q, holds q → other q) :
    HaltedBy other place ds halt stepId := by
  obtain ⟨before, d, same, halts, stands, touched⟩ := halted
  exact ⟨before, d, same, halts, implies _ stands, touched⟩

theorem HaltedBy.behind {holds : Query → Prop} {place : Position} {ds : List (Deed σ)} {halt stepId}
    (es : List (Deed σ)) (halted : HaltedBy holds place ds halt stepId) :
    HaltedBy holds place (es ++ ds) halt stepId := by
  obtain ⟨before, d, rfl, rest⟩ := halted
  exact ⟨es ++ before, d, (List.append_assoc ..).symm, rest⟩

/-- Where a query stands in a part of a program. -/
def Task.Holds (q : Query) (position : Position) : Task → Prop
  | .row cursor items _ => ∃ next deeper, position = (cursor + next) :: deeper ∧
      Schema.Holds items q (next :: deeper)
  | .rest cursor items _ => ∃ next deeper, position = (cursor + 1 + next) :: deeper ∧
      Schema.Holds items q (next :: deeper)
  | .item i _ => i.Holds position q
  | .inside i _ => i.Holds position q
  | .body _ items _ => Schema.Holds items q position
  | .loop test items _ => Schema.Holds items q position ∨ position = [items.length] ∧ q = .check .test test
  | .rounds test items _ _ =>
    Schema.Holds items q position ∨ position = [items.length] ∧ q = .check .test test

/-- How the part before it ended, for a part of a program that depends on it. -/
def Task.pending? : Task → Option Finish
  | .rest _ _ f => some f
  | .rounds _ _ _ f => some f
  | _ => none

theorem Task.not_pending {t : Task} (alone : t.pending? = none) {P : Finish → Prop} (g : Finish)
    (pending : t.pending? = some g) : P g := by
  rw [alone] at pending
  cases pending

theorem Schema.Holds.within {i : Item} {items : List Item} {looped : Bool} {q : Query} {position : Position}
    (row : i.row? = some (items, looped)) (holds : Schema.Holds items q position) : i.Holds position q := by
  cases position with
  | nil => exact holds.elim
  | cons next deeper =>
    obtain ⟨j, found, holds⟩ := holds
    exact .inside row found holds

theorem Task.Holds.first {cursor : Nat} {i : Item} {items : List Item} {p : Progress} {q : Query}
    {deeper : Position} (holds : i.Holds deeper q) :
    (Task.row cursor (i :: items) p).Holds q (cursor :: deeper) :=
  ⟨0, deeper, rfl, i, rfl, holds⟩

theorem Task.Holds.later {cursor : Nat} {i : Item} {items : List Item} {p : Progress} {q : Query}
    {position : Position} (holds : ∃ next deeper, position = (cursor + 1 + next) :: deeper ∧
      Schema.Holds items q (next :: deeper)) : (Task.row cursor (i :: items) p).Holds q position := by
  obtain ⟨next, deeper, rfl, holds⟩ := holds
  exact ⟨next + 1, deeper, by rw [Nat.add_assoc, Nat.add_comm 1], holds⟩

variable {s : Scene σ}

theorem Checks.breaks {here stepId role c w ds halt w'} {holds : Query → Prop} {place : Position}
    {last : String} (checks : Checks s here stepId role c w ds (.ok (.error halt)) w')
    (stands : holds (.check role c))
    (placed : ∀ answer after, (Deed.checked role c here.cursors w answer after).At place.cursors) :
    HaltedBy holds place ds halt last := by
  cases checks with
  | halted asked => exact ⟨[], _, rfl, .inr rfl, stands, placed _ _, nofun⟩

theorem Invokes.halted {here id literal supplied w as ds halt position stepId w'} (holds : Query → Prop)
    (invokes : Invokes s here id literal supplied w as ds (.halted halt position stepId) w')
    (stands : holds (.invoke id literal)) : position = [] ∧ HaltedBy holds here ds halt stepId := by
  generalize ends : Finish.halted halt position stepId = f at invokes
  induction invokes with
  | @told supplied w outcome w₁ w₂ asked told =>
    have touched : ∀ i l, Query.invoke id literal = .invoke i l → id = i := by
      rintro _ _ ⟨⟩
      rfl
    cases outcome with
    | done => cases ends
    | awaits => cases ends; exact ⟨rfl, [], _, rfl, .inl rfl, stands, rfl, touched⟩
    | failed => cases ends; exact ⟨rfl, [], _, rfl, .inr rfl, stands, rfl, touched⟩
  | untold => cases ends
  | failed => cases ends
  | again asked told waited rest ih =>
    obtain ⟨rfl, halted⟩ := ih ends
    exact ⟨rfl, halted.behind [_]⟩

theorem row_halted {here cursor i items p f w as ds es g w' halt position stepId}
    (first : ∀ halt deeper stepId, f = .halted halt deeper stepId →
      HaltedBy (i.Holds deeper) (here ++ [cursor] ++ deeper) ds halt stepId)
    (rest : Runs s here (.rest cursor items f) w as es g w')
    (behind : (∀ halt position stepId, f ≠ .halted halt position stepId) →
      HaltedBy ((Task.rest cursor items f).Holds · position) (here ++ position) es halt stepId)
    (ends : g = .halted halt position stepId) :
    HaltedBy ((Task.row cursor (i :: items) p).Holds · position) (here ++ position) (ds ++ es) halt stepId := by
  cases f with
  | halted halt' deeper id =>
    cases rest with
    | leave leaves =>
      cases ends
      have halted := first _ _ _ rfl
      rw [List.append_assoc] at halted
      rw [List.append_nil]
      exact halted.mono (fun _ => Task.Holds.first)
  | onward => exact ((behind nofun).mono (fun _ => Task.Holds.later)).behind ds
  | signalled => exact ((behind nofun).mono (fun _ => Task.Holds.later)).behind ds
  | failed => exact ((behind nofun).mono (fun _ => Task.Holds.later)).behind ds

theorem rounds_halted {here test items p f w as ds es g w' halt position stepId}
    (body : ∀ halt deeper stepId, f = .halted halt deeper stepId →
      HaltedBy (Schema.Holds items · deeper) (here ++ deeper) ds halt stepId)
    (rounds : Runs s here (.rounds test items p f) w as es g w')
    (behind : (∀ halt position stepId, f ≠ .halted halt position stepId) →
      HaltedBy ((Task.rounds test items p f).Holds · position) (here ++ position) es halt stepId)
    (ends : g = .halted halt position stepId) :
    HaltedBy ((Task.rounds test items p f).Holds · position) (here ++ position) (ds ++ es) halt stepId := by
  cases f with
  | halted halt' deeper id =>
    cases rounds with
    | again again => cases again
    | ended ended =>
      cases ends
      rw [List.append_nil]
      exact (body _ _ _ rfl).mono (fun _ => .inl)
  | onward => exact (behind nofun).behind ds
  | signalled => exact (behind nofun).behind ds
  | failed => exact (behind nofun).behind ds

theorem Closes.halted {level here f w g w' halt position stepId} (closes : Closes s level here f w g w')
    (ends : g = .halted halt position stepId) : f = .halted halt position stepId := by
  subst ends
  cases closes
  rfl

theorem Task.Holds.whole {level : Level} {items : List Item} {supplied : Value} {p : Progress} {q : Query}
    {position : Position} (holds : (Task.row 0 items p).Holds q position) :
    (Task.body level items supplied).Holds q position := by
  obtain ⟨next, deeper, rfl, holds⟩ := holds
  rw [Nat.zero_add]
  exact holds

theorem Task.Holds.within {test : Condition} {items : List Item} {gate : Option Condition} {p : Progress}
    {f : Finish} {q : Query} {position : Position} (holds : (Task.rounds test items p f).Holds q position) :
    (Item.loop test items gate).Holds position q := by
  obtain holds | ⟨rfl, rfl⟩ := holds
  · exact Schema.Holds.within rfl holds
  · exact .test

/-- A program that halts does so with its last deed, at the position where that stands. -/
theorem Runs.halted {here t w as ds f w' halt position stepId} (runs : Runs s here t w as ds f w')
    (ends : f = .halted halt position stepId)
    (fresh : ∀ g, t.pending? = some g → ∀ halt position stepId, g ≠ .halted halt position stepId) :
    HaltedBy (t.Holds · position) (here ++ position) ds halt stepId := by
  -- `fresh` keeps out the parts behind an item or an iteration that halted: they do nothing more.
  induction runs generalizing halt position stepId with
  | row_end => cases ends
  | row first rest ih next =>
    refine row_halted (fun _ _ _ same => ih same nofun) rest (fun going => next ends ?_) ends
    rintro _ ⟨⟩
    exact going
  | rest next ih => exact ih ends nofun
  | @leave here cursor items f w leaves =>
    cases f with
    | halted halt' deeper id => exact absurd rfl (fresh _ rfl halt' deeper id)
    | onward => cases ends
    | signalled => cases ends
    | failed => cases ends
  | free free inside ih => exact ih ends nofun
  | opened gated gate inside ih => exact (ih ends nofun).behind _
  | @closed here i p c w ds answer f w₁ gated gate closed =>
    subst ends
    rcases answer with fault | halt' | ⟨_ | _⟩ <;> cases closed
    exact gate.breaks (.gate gated) (fun _ _ => by rw [List.append_nil]; rfl)
  | @marker here signal test p w ds answer w' marker =>
    rcases answer with fault | halt' | ⟨_ | _⟩ <;> cases ends
    exact marker.breaks .marker (fun _ _ => by rw [List.append_nil]; rfl)
  | step step =>
    subst ends
    obtain ⟨rfl, halted⟩ := step.halted (fun q => q = .invoke _ _) rfl
    rw [List.append_nil]
    exact halted.mono (by rintro _ rfl; exact .step)
  | @block here items gate p w as ds f w' body ih =>
    cases f <;> cases ends
    exact (ih rfl nofun).mono (fun _ => Schema.Holds.within rfl)
  | @loop here test items gate p w as ds f w' loop ih =>
    exact (ih ends nofun).mono (fun _ => Task.Holds.within (p := p) (f := f))
  | @tested here test items p w ds answer f w' tested ended =>
    subst ends
    rcases answer with fault | halt' | ⟨_ | _⟩ <;> cases ended
    exact tested.breaks (.inr ⟨rfl, rfl⟩) (fun _ _ => by simp [Deed.At])
  | @iteration here test items p w ds w₁ as es f w₂ bs fs g w₃ tested body rounds ih next =>
    rw [List.append_assoc]
    refine (rounds_halted (fun _ _ _ same => ih same nofun) rounds (fun going => next ends ?_) ends).behind ds
    rintro _ ⟨⟩
    exact going
  | again again loop ih => exact ih ends nofun
  | @ended here test items p f w ended =>
    rcases f with q | ⟨⟨⟩, id⟩ | ⟨halt', deeper, id⟩ | fault
    · cases ends
    · cases ends
    · cases ends
    · exact absurd rfl (fresh _ rfl halt' deeper id)
    · cases ends
  | body told row closes ih => exact (ih (closes.halted ends) nofun).mono (fun _ => Task.Holds.whole)
  | body_untold => cases ends

theorem Resumes.halted {here t position w as ds f w' halt last stepId}
    (resumes : Resumes s here t position w as ds f w') (ends : f = .halted halt last stepId) :
    HaltedBy (t.Holds · last) (here ++ last) ds halt stepId := by
  induction resumes generalizing halt last stepId with
  | row row => exact row.halted ends nofun
  | later later row ih => exact (ih ends).mono (fun _ => Task.Holds.later)
  | item item rest ih =>
    refine row_halted (fun _ _ _ same => ih same) rest (fun going => rest.halted ends ?_) ends
    rintro _ ⟨⟩
    exact going
  | @block here items gate p next deeper w as ds f w' body ih =>
    cases f <;> cases ends
    exact (ih rfl).mono (fun _ => Schema.Holds.within rfl)
  | loop body rounds ih =>
    refine (rounds_halted (fun _ _ _ same => ih same) rounds (fun going => rounds.halted ends ?_) ends).mono
      (fun _ => Task.Holds.within)
    rintro _ ⟨⟩
    exact going
  | body told row closes ih => exact (ih (closes.halted ends)).mono (fun _ => Task.Holds.whole)
  | body_untold => cases ends

/-- A program failed with the last of its deeds, or because it could not tell of something. It tells of an
interruption only when its last deed halted. -/
def FailedBy (s : Scene σ) (ds : List (Deed σ)) (fault : Fault) (w' : σ) : Prop :=
  (∃ before d, ds = before ++ [d] ∧ d.Raises fault ∧ d.after = w') ∨
    ∃ event v w, s.told event v w (.error fault) w' ∧
      ∀ level, event = .interrupted level → ∃ before d halt, ds = before ++ [d] ∧ d.Halts halt

theorem FailedBy.behind {ds : List (Deed σ)} {fault w'} (es : List (Deed σ)) (failed : FailedBy s ds fault w') :
    FailedBy s (es ++ ds) fault w' := by
  obtain ⟨before, d, rfl, raises⟩ | ⟨event, v, w, untold, halts⟩ := failed
  · exact .inl ⟨es ++ before, d, (List.append_assoc ..).symm, raises⟩
  · refine .inr ⟨event, v, w, untold, fun level same => ?_⟩
    obtain ⟨before, d, halt, rfl, last⟩ := halts level same
    exact ⟨es ++ before, d, halt, (List.append_assoc ..).symm, last⟩

theorem Checks.fails {here stepId role c w ds fault w'} (checks : Checks s here stepId role c w ds (.error fault) w') :
    FailedBy s ds fault w' := by
  cases checks with
  | untold asked untold => exact .inr ⟨_, _, _, untold, nofun⟩
  | failed asked => exact .inl ⟨[], _, rfl, rfl, rfl⟩

theorem Invokes.fails {here id literal supplied w as ds fault w'}
    (invokes : Invokes s here id literal supplied w as ds (.failed fault) w') : FailedBy s ds fault w' := by
  generalize ends : Finish.failed fault = f at invokes
  induction invokes with
  | @told supplied w outcome w₁ w₂ asked told => cases outcome <;> cases ends
  | untold asked untold =>
    cases ends
    exact .inr ⟨_, _, _, untold, nofun⟩
  | failed asked =>
    cases ends
    exact .inl ⟨[], _, rfl, rfl, rfl⟩
  | again asked told waited rest ih => exact (ih ends).behind [_]

theorem row_failed {here cursor items f w₁ as ds es g w' fault}
    (first : ∀ fault, f = .failed fault → FailedBy s ds fault w₁)
    (rest : Runs s here (.rest cursor items f) w₁ as es g w')
    (behind : (∀ fault, f ≠ .failed fault) → FailedBy s es fault w') (ends : g = .failed fault) :
    FailedBy s (ds ++ es) fault w' := by
  cases f with
  | failed fault' =>
    cases rest with
    | leave leaves =>
      cases ends
      rw [List.append_nil]
      exact first _ rfl
  | onward => exact (behind nofun).behind ds
  | signalled => exact (behind nofun).behind ds
  | halted => exact (behind nofun).behind ds

theorem rounds_failed {here test items p f w₁ as ds es g w' fault}
    (body : ∀ fault, f = .failed fault → FailedBy s ds fault w₁)
    (rounds : Runs s here (.rounds test items p f) w₁ as es g w')
    (behind : (∀ fault, f ≠ .failed fault) → FailedBy s es fault w') (ends : g = .failed fault) :
    FailedBy s (ds ++ es) fault w' := by
  cases f with
  | failed fault' =>
    cases rounds with
    | again again => cases again
    | ended ended =>
      cases ends
      rw [List.append_nil]
      exact body _ rfl
  | onward => exact (behind nofun).behind ds
  | signalled => exact (behind nofun).behind ds
  | halted => exact (behind nofun).behind ds

theorem Closes.fails {level here f w g w' fault} {ds : List (Deed σ)} {holds : Position → Query → Prop}
    (closes : Closes s level here f w g w') (inside : ∀ fault, f = .failed fault → FailedBy s ds fault w)
    (halted : ∀ halt position stepId, f = .halted halt position stepId →
      HaltedBy (holds position) (here ++ position) ds halt stepId)
    (ends : g = .failed fault) : FailedBy s ds fault w' := by
  subst ends
  cases closes with
  | told closing told => cases closing
  | failed => exact inside _ rfl
  | @untold f event v w fault w' closing untold =>
    refine .inr ⟨event, v, w, untold, ?_⟩
    rintro level' rfl
    cases f with
    | halted halt position stepId =>
      obtain ⟨before, d, same, halts, -⟩ := halted halt position stepId rfl
      exact ⟨before, d, halt, same, halts⟩
    | onward => cases closing
    | signalled => cases closing
    | failed => cases closing

/-- A program that fails was failed by its last deed, or by what it told of. -/
theorem Runs.failed {here t w as ds f w' fault} (runs : Runs s here t w as ds f w') (ends : f = .failed fault)
    (fresh : ∀ g, t.pending? = some g → ∀ fault, g ≠ .failed fault) : FailedBy s ds fault w' := by
  induction runs generalizing fault with
  | row_end => cases ends
  | row first rest ih next =>
    refine row_failed (fun _ same => ih same nofun) rest (fun going => next ends ?_) ends
    rintro _ ⟨⟩
    exact going
  | rest next ih => exact ih ends nofun
  | @leave here cursor items f w leaves =>
    cases f with
    | failed fault' => exact absurd rfl (fresh _ rfl fault')
    | onward => cases ends
    | signalled => cases ends
    | halted => cases ends
  | free free inside ih => exact ih ends nofun
  | opened gated gate inside ih => exact (ih ends nofun).behind _
  | @closed here i p c w ds answer f w₁ gated gate closed =>
    subst ends
    rcases answer with fault | halt | ⟨_ | _⟩ <;> cases closed
    exact gate.fails
  | @marker here signal test p w ds answer w' marker =>
    rcases answer with fault | halt | ⟨_ | _⟩ <;> cases ends
    exact marker.fails
  | step step =>
    subst ends
    exact step.fails
  | @block here items gate p w as ds f w' body ih =>
    cases f <;> cases ends
    exact ih rfl nofun
  | loop loop ih => exact ih ends nofun
  | @tested here test items p w ds answer f w' tested ended =>
    subst ends
    rcases answer with fault | halt | ⟨_ | _⟩ <;> cases ended
    exact tested.fails
  | iteration tested body rounds ih next =>
    rw [List.append_assoc]
    refine (rounds_failed (fun _ same => ih same nofun) rounds (fun going => next ends ?_) ends).behind _
    rintro _ ⟨⟩
    exact going
  | again again loop ih => exact ih ends nofun
  | @ended here test items p f w ended =>
    rcases f with q | ⟨⟨⟩, id⟩ | ⟨halt, deeper, id⟩ | fault
    · cases ends
    · cases ends
    · cases ends
    · cases ends
    · exact absurd rfl (fresh _ rfl fault)
  | body told row closes ih =>
    exact closes.fails (fun _ same => ih same nofun) (fun _ _ _ same => row.halted same nofun) ends
  | body_untold untold =>
    cases ends
    exact .inr ⟨_, _, _, untold, nofun⟩

theorem Resumes.failed {here t position w as ds f w' fault} (resumes : Resumes s here t position w as ds f w')
    (ends : f = .failed fault) : FailedBy s ds fault w' := by
  induction resumes generalizing fault with
  | row row => exact row.failed ends nofun
  | later later row ih => exact ih ends
  | item item rest ih =>
    refine row_failed (fun _ same => ih same) rest (fun going => rest.failed ends ?_) ends
    rintro _ ⟨⟩
    exact going
  | @block here items gate p next deeper w as ds f w' body ih =>
    cases f <;> cases ends
    exact ih rfl
  | loop body rounds ih =>
    refine rounds_failed (fun _ same => ih same) rounds (fun going => rounds.failed ends ?_) ends
    rintro _ ⟨⟩
    exact going
  | body told row closes ih =>
    exact closes.fails (fun _ same => ih same) (fun _ _ _ same => row.halted same) ends
  | body_untold untold =>
    cases ends
    exact .inr ⟨_, _, _, untold, nofun⟩

end

end Workflow.Engine
