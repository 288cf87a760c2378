import Workflow.Proofs.Names
import Workflow.Proofs.Openings

/-! Waiting for answers. A call that asks halts, and the call that brings the answer goes on from there. To
the program, that is an invocation repeated on the spot after some waiting: what is told of the interruption
and of the rows that are entered again, and the gate of the asking step, are all that happens in between. -/

namespace Workflow.Engine
open Script (Value)

section
variable {σ : Type}

/-- An event, as a continued call tells of it. -/
def Level.continued : Level → Level
  | .started => .resumed
  | level => level

def Event.continued : Event → Event
  | .opened level => .opened level.continued
  | .ended level => .ended level.continued
  | .interrupted level => .interrupted level.continued
  | event => event

/-- What is told of between a question and its answer: that rows are interrupted and entered again, and
that the gate of a step holds again. -/
def Event.Pauses : Event → Prop
  | .interrupted _ => True
  | .opened _ => True
  | .checked .gate _ true => True
  | _ => False

/-- Nothing happens but what keeps something, and what is told of the pause. -/
inductive Idles (host : Host σ) (keeps : σ → σ → Prop) : σ → σ → Prop where
  | still {w} : Idles host keeps w w
  | kept {w w' w''} (kept : keeps w w') (rest : Idles host keeps w' w'') : Idles host keeps w w''
  | told {event v w w' w''} (pauses : Event.Pauses event) (told : host.emit event v w = .ok () w')
      (rest : Idles host keeps w' w'') : Idles host keeps w w''

theorem Idles.trans {host : Host σ} {keeps : σ → σ → Prop} {w w' w'' : σ} (first : Idles host keeps w w')
    (second : Idles host keeps w' w'') : Idles host keeps w w'' := by
  induction first with
  | still => exact second
  | kept kept rest ih => exact .kept kept (ih second)
  | told pauses told rest ih => exact .told pauses told (ih second)

/-- The world of a host in which answers are waited for, be it in the same call or between calls. -/
def Host.waiting (host : Host σ) (keeps : σ → σ → Prop) : Scene σ where
  host
  told event v w told w' :=
    host.emit event v w = answered told w' ∨ host.emit event.continued v w = answered told w'
  waited := Idles host keeps

/-- The own gate of a step that is gone on with was checked first: it held, and that kept what is to be
kept. -/
def Reopens (keeps : σ → σ → Prop) (gate : Option Condition) (ds es : List (Deed σ)) : Prop :=
  match gate with
  | none => ds = es
  | some c => ∃ place before after,
      ds = .checked .gate c place before (.ok (.ok true)) after :: es ∧ keeps before after

theorem Reopens.split {keeps : σ → σ → Prop} {gate : Option Condition} {ds es fs : List (Deed σ)}
    (present : ds ≠ []) (reopens : Reopens keeps gate (ds ++ es) fs) :
    ∃ ds', Reopens keeps gate ds ds' ∧ fs = ds' ++ es := by
  cases gate with
  | none => exact ⟨ds, rfl, reopens.symm⟩
  | some c =>
    obtain ⟨place, before, after, same, kept⟩ := reopens
    cases ds with
    | nil => exact absurd rfl present
    | cons d ds =>
      obtain ⟨rfl, rfl⟩ := List.cons.inj same
      exact ⟨ds, ⟨place, before, after, rfl, kept⟩, rfl⟩

/-! The last step touched does not depend on what came before an iteration or a row in which one was. -/

def Finish.Touched : Finish → Prop
  | .onward p => p.stepId ≠ ""
  | .signalled _ stepId => stepId ≠ ""
  | _ => True

theorem lastStep_of_touched {earlier later : String} (touched : later ≠ "") : lastStep earlier later = later := by
  have present : later.isEmpty = false := by
    rw [String.isEmpty_eq_false_iff]
    exact touched
  rw [lastStep, present]
  rfl

theorem lastStep_touched {earlier later : String} (touched : earlier ≠ "" ∨ later ≠ "") :
    lastStep earlier later ≠ "" := by
  by_cases empty : later = ""
  · subst empty
    exact touched.resolve_right (fun present => present rfl)
  · rw [lastStep_of_touched empty]
    exact empty

theorem Finish.Touched.ofBlock {f : Finish} (touched : f.Touched) (p q : Progress) : f.ofBlock p = f.ofBlock q := by
  cases f with
  | onward => simp only [Finish.ofBlock, lastStep_of_touched touched]
  | signalled => simp only [Finish.ofBlock, lastStep_of_touched touched]
  | halted => rfl
  | failed => rfl

theorem Finish.Touched.again? {f : Finish} (touched : f.Touched) (p q : Progress) : f.again? p = f.again? q := by
  cases f with
  | onward => simp only [Finish.again?, lastStep_of_touched touched]
  | signalled signal =>
    cases signal
    · rfl
    · simp only [Finish.again?, lastStep_of_touched touched]
  | halted => rfl
  | failed => rfl

theorem Finish.Touched.ofLoop {f : Finish} (touched : f.Touched) (p q : Progress) : f.ofLoop p = f.ofLoop q := by
  cases f with
  | onward => rfl
  | signalled signal =>
    cases signal
    · simp only [Finish.ofLoop, lastStep_of_touched touched]
    · rfl
  | halted => rfl
  | failed => rfl

theorem Runs.rounds_congr {s : Scene σ} {here test items p f w as ds g w'}
    (rounds : Runs s here (.rounds test items p f) w as ds g w') (touched : f.Touched) (q : Progress) :
    Runs s here (.rounds test items q f) w as ds g w' := by
  cases rounds with
  | again again loop => exact .again ((touched.again? q p).trans again) loop
  | ended ended =>
    rw [touched.ofLoop p q]
    exact .ended ((touched.again? q p).trans ended)

def Task.Named : Task → Prop
  | .row _ items _ => Schema.Named items
  | .rest _ items _ => Schema.Named items
  | .item i _ => i.Named
  | .inside i _ => i.Named
  | .body _ items _ => Schema.Named items
  | .loop _ items _ => Schema.Named items
  | .rounds _ items _ _ => Schema.Named items

def Task.Touched : Task → Prop
  | .row _ _ p => p.stepId ≠ ""
  | .rest _ _ f => f.Touched
  | .item _ p => p.stepId ≠ ""
  | .inside _ p => p.stepId ≠ ""
  | .body _ _ _ => False
  | .loop _ _ p => p.stepId ≠ ""
  | .rounds _ _ p f => p.stepId ≠ "" ∨ f.Touched

theorem Invokes.touched {s : Scene σ} {here id literal supplied w as ds f w'}
    (invokes : Invokes s here id literal supplied w as ds f w') (named : id ≠ "") : f.Touched := by
  induction invokes with
  | @told _ _ outcome => cases outcome <;> trivial
  | untold => trivial
  | failed => trivial
  | again asked told waited rest ih => exact ih

/-- Once a step was touched, one stays so. -/
theorem Runs.touched {s : Scene σ} {here t w as ds f w'} (runs : Runs s here t w as ds f w') (named : t.Named)
    (touched : t.Touched) : f.Touched := by
  induction runs with
  | row_end => exact touched
  | row first rest ih next => exact next named.2 (ih named.1 touched)
  | rest next ih => exact ih named touched
  | @leave here cursor items f w leaves =>
    cases f with
    | onward => exact leaves.elim
    | signalled => exact touched
    | halted => trivial
    | failed => trivial
  | free free inside ih => exact ih named touched
  | opened gated gate inside ih => exact ih named touched
  | @closed here i p c w ds answer f w₁ gated gate closed =>
    rcases answer with fault | halt | ⟨_ | _⟩ <;> cases closed
    · trivial
    · trivial
    · exact touched
  | @marker here signal test p w ds answer w' marker =>
    rcases answer with fault | halt | ⟨_ | _⟩
    · trivial
    · trivial
    · exact touched
    · exact touched
  | step step => exact step.touched named
  | @block here items gate p w as ds f w' body ih =>
    cases f with
    | onward => exact lastStep_touched (.inl touched)
    | signalled => exact lastStep_touched (.inl touched)
    | halted => trivial
    | failed => trivial
  | loop loop ih => exact ih named touched
  | @tested here test items p w ds answer f w' tested ended =>
    rcases answer with fault | halt | ⟨_ | _⟩ <;> cases ended
    · trivial
    · trivial
    · exact touched
  | iteration tested body rounds ih next => exact next named (.inl touched)
  | @again here test items p f q w as ds g w' again loop ih =>
    refine ih named ?_
    rcases f with r | ⟨⟨⟩, stepId⟩ | _ | _ <;> cases again
    · exact lastStep_touched touched
    · exact lastStep_touched touched
  | @ended here test items p f w ended =>
    rcases f with r | ⟨⟨⟩, stepId⟩ | _ | _
    · cases ended
    · exact lastStep_touched touched
    · cases ended
    · trivial
    · trivial
  | body => exact touched.elim
  | body_untold => exact touched.elim

theorem Closes.touched {s : Scene σ} {level here f w g w'} (closes : Closes s level here f w g w')
    (touched : f.Touched) : g.Touched := by
  cases closes with
  | told => exact touched
  | untold => trivial
  | failed => trivial

end

end Workflow.Engine
