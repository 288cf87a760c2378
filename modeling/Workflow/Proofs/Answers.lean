import Workflow.Proofs.Consumption
import Workflow.Proofs.Registered

/-! Where an answer goes. A call that goes on where a step has asked comes to this step first. If the step has a gate, it is
checked again, and only if it no longer holds does the answer go on to what is behind. -/

namespace Workflow
open Script (Value)
open Engine (Halt Outcome deedsOf)

namespace Engine

/-- A part of a schema is gone on with at an item. -/
def Part.ResumesAt (cursors : List Int) (i : Item) : Part → Prop
  | .row cursor deeper _ items => cursors = cursor :: deeper ∧ ∃ j, items.head? = some j ∧ j.below? deeper = some i
  | .walk start deeper _ items => cursors = start :: deeper ∧ Schema.find? items (start :: deeper) = some i
  | .item deeper _ j => cursors = deeper ∧ j.below? deeper = some i
  | .inside deeper _ j => cursors = deeper ∧ j.below? deeper = some i
  | .body _ resume _ items => cursors = resume ∧ Schema.find? items resume = some i
  | .loop _ resume _ items => cursors = resume ∧ Schema.find? items resume = some i

/-- The own gate of the item at a place still holds, if there is any. -/
def Holds (place : List Int) (ds : List (Deed σ)) : Prop :=
  ds = [] ∨ ∃ c w w', ds = [.checked .gate c place w (.ok (.ok true)) w']

/-- A step is the first thing that is come to. Unless its gate no longer holds, no other step is invoked before. -/
inductive ComesFirst (place : List Int) (id : String) (literal : Value) : List (Deed σ) → End → Prop where
  | shut {c w w' rest e} : ComesFirst place id literal (.checked .gate c place w (.ok (.ok false)) w' :: rest) e
  | invoked {gate supplied w answer w' rest e} (holds : Holds place gate) :
      ComesFirst place id literal (gate ++ .invoked id literal supplied place w answer w' :: rest) e
  | stopped {ds e} (none : supplies ds = []) (ends : ¬ e.Runs) : ComesFirst place id literal ds e

namespace ComesFirst
variable {place : List Int} {id : String} {literal : Value} {ds es : List (Deed σ)} {e f : End}

theorem append (first : ComesFirst place id literal ds e) (runs : e.Runs) : ComesFirst place id literal (ds ++ es) f := by
  cases first with
  | shut => exact .shut
  | invoked holds =>
    rw [List.append_assoc]
    exact .invoked holds
  | stopped none ends => exact absurd runs ends

theorem mono (first : ComesFirst place id literal ds e) (runs : f.Runs → e.Runs) : ComesFirst place id literal ds f := by
  cases first with
  | shut => exact .shut
  | invoked holds => exact .invoked holds
  | stopped none ends => exact .stopped none (fun ran => ends (runs ran))

end ComesFirst

theorem CheckMoments.holds {here stepId c} {ms : List (Moment σ)} (check : CheckMoments here stepId .gate c ms (.ok (.ok true))) :
    Holds here (deedsOf ms) := by
  cases check with
  | told => exact .inr ⟨_, _, _, rfl⟩
  | stopped stops => exact absurd rfl (stops true)

theorem CheckMoments.comes_first {here stepId c} {p : Progress} {answer : Answer} {ms : List (Moment σ)} {e : End}
    (check : CheckMoments here stepId .gate c ms answer) (shut : End.ofGate? p answer = some e) (id : String) (literal : Value) :
    ComesFirst here id literal (deedsOf ms) e := by
  rcases answer with fault | halt | _ | _
  · cases shut
    exact .stopped check.supplies False.elim
  · cases shut
    exact .stopped check.supplies False.elim
  · cases check with
    | told => exact .shut
    | stopped stops => exact absurd rfl (stops false)
  · cases shut

theorem CloseMoments.runs {level here} {e f : End} {ms : List (Moment σ)} (closes : CloseMoments level here e ms f)
    (runs : f.Runs) : e.Runs := by
  cases closes with
  | told => exact runs
  | missed => exact runs.elim
  | failed => exact runs.elim

namespace Part
variable {start : Int} {deeper cursors : List Int} {p : Progress} {items : List Item} {i j : Item}

theorem resumes_ahead (ahead : 0 ≤ start) (resumes : ResumesAt cursors i (.walk start deeper p items)) :
    ResumesAt cursors i (.row start deeper p (items.drop start.toNat)) := by
  obtain ⟨rfl, found⟩ := resumes
  refine ⟨rfl, ?_⟩
  rw [Schema.find?, itemAt?_nonneg ahead] at found
  rw [List.head?_drop]
  cases there : items[start.toNat]? with
  | none => rw [there] at found; cases found
  | some j =>
    rw [there] at found
    exact ⟨j, rfl, found⟩

theorem resumes_back (back : start < 0) (resumes : ResumesAt cursors i (.walk start deeper p items)) :
    ResumesAt cursors i (.row start deeper p (items.drop (start + items.length).toNat)) := by
  obtain ⟨rfl, found⟩ := resumes
  refine ⟨rfl, ?_⟩
  have inside : 0 ≤ start + items.length := by
    apply Int.not_lt.mp
    intro outside
    rw [Schema.find?, itemAt?, if_pos back, if_pos outside] at found
    cases found
  rw [Schema.find?, itemAt?_neg back inside] at found
  rw [List.head?_drop]
  cases there : items[(start + items.length).toNat]? with
  | none => rw [there] at found; cases found
  | some j =>
    rw [there] at found
    exact ⟨j, rfl, found⟩

theorem resumes_head {cursor : Int} (resumes : ResumesAt cursors i (.row cursor deeper p (j :: items))) :
    cursors = cursor :: deeper ∧ ResumesAt deeper i (.item deeper p j) := by
  obtain ⟨rfl, k, same, below⟩ := resumes
  cases same
  exact ⟨rfl, rfl, below⟩

/-- A step lies below an item either because it is the item, or it lies in the row inside. -/
theorem resumes_row {row : List Item} {looped : Bool} (below : j.below? deeper = some i)
    (inner : j.row? = some (row, looped)) (other : j ≠ i) : Schema.find? row deeper = some i := by
  cases deeper with
  | nil => exact absurd (Option.some.inj below) other
  | cons cursor deeper =>
    rw [Item.below?, inner] at below
    exact below

end Part

/-- A part that is gone on with at a step comes to this step first. -/
theorem Chronicle.comes_first {here cursors : List Int} {t : Part} {ms : List (Moment σ)} {e : End} {id : String} {literal : Value}
    {gate : Option Condition} (chronicle : Chronicle here t ms e) (resumes : t.ResumesAt cursors (.step id literal gate)) :
    ComesFirst (here ++ cursors) id literal (deedsOf ms) e := by
  induction chronicle generalizing cursors with
  | row_end =>
    obtain ⟨-, j, impossible, -⟩ := resumes
    cases impossible
  | @row_onward here cursor deeper p i items ms q ns e first rest ihFirst ihRest =>
    obtain ⟨rfl, inside⟩ := Part.resumes_head resumes
    have comes := ihFirst inside
    rw [List.append_assoc] at comes
    rw [deedsOf_append]
    exact comes.append trivial
  | row_leave first ih =>
    obtain ⟨rfl, inside⟩ := Part.resumes_head resumes
    have comes := ih inside
    rw [List.append_assoc] at comes
    exact comes.mono End.runs_under
  | row_failed first ih =>
    obtain ⟨rfl, inside⟩ := Part.resumes_head resumes
    have comes := ih inside
    rw [List.append_assoc] at comes
    exact comes
  | ahead ahead row ih => exact ih (Part.resumes_ahead ahead resumes)
  | back back row again ihRow ihAgain =>
    rw [deedsOf_append]
    exact (ihRow (Part.resumes_back back resumes)).append trivial
  | back_end back row ends ih => exact ih (Part.resumes_back back resumes)
  | free free inside ih => exact ih resumes
  | opened gated check inside ih =>
    obtain ⟨rfl, below⟩ := resumes
    cases below
    cases inside with
    | step step =>
      obtain ⟨w, answer, w', same⟩ := step.deeds
      rw [List.append_nil, deedsOf_append, same]
      exact .invoked check.holds
  | shut gated check shut =>
    obtain ⟨rfl, below⟩ := resumes
    rw [List.append_nil]
    exact check.comes_first shut id literal
  | @marker here deeper p signal test ms answer check =>
    obtain ⟨rfl, below⟩ := resumes
    cases cursors <;> cases below
  | @step here deeper p id' literal' gate' ms e step =>
    obtain ⟨rfl, below⟩ := resumes
    cases cursors with
    | nil =>
      cases below
      obtain ⟨w, answer, w', same⟩ := step.deeds
      rw [List.append_nil, same]
      exact .invoked (.inl rfl)
    | cons => cases below
  | block body ih =>
    obtain ⟨rfl, below⟩ := resumes
    exact (ih ⟨rfl, Part.resumes_row below rfl nofun⟩).mono End.runs_ofBlock
  | loop loop ih =>
    obtain ⟨rfl, below⟩ := resumes
    exact ih ⟨rfl, Part.resumes_row below rfl nofun⟩
  | @body here level resume supplied items w w' ms e ns f walk closes ih =>
    obtain ⟨rfl, found⟩ := resumes
    rw [deedsOf_told, deedsOf_append, closes.deeds, List.append_nil]
    cases cursors with
    | nil => cases found
    | cons cursor deeper => exact (ih ⟨rfl, found⟩).mono closes.runs
  | body_missed => exact .stopped rfl False.elim
  | spent => exact .stopped rfl False.elim
  | tested check ends =>
    obtain ⟨-, impossible⟩ := resumes
    cases impossible
  | round tested body again rest ihBody ihRest =>
    obtain ⟨rfl, found⟩ := resumes
    cases tested with
    | checked check => cases found
    | resumed =>
      rw [List.nil_append, deedsOf_append]
      exact (ihBody ⟨rfl, found⟩).append (End.runs_again again)
  | round_end tested body ends ih =>
    obtain ⟨rfl, found⟩ := resumes
    cases tested with
    | checked check => cases found
    | resumed => exact (ih ⟨rfl, found⟩).mono End.runs_ofLoop

/-- The gate of an item at a place was checked, and it no longer holds. -/
def Closed (place : List Int) (ds : List (Deed σ)) : Prop :=
  ∃ c w w' rest, ds = .checked .gate c place w (.ok (.ok false)) w' :: rest

/-- Whatever step is invoked is the one that is come to first, or another one has been invoked before, or the gate of the
first one no longer holds. -/
theorem ComesFirst.invocation {place there : List Int} {id id' : String} {literal literal' supplied : Value}
    {ds before after : List (Deed σ)} {e : End} {w w' : σ} {answer : Except Fault Outcome}
    (first : ComesFirst place id literal ds e)
    (course : ds = before ++ .invoked id' literal' supplied there w answer w' :: after) :
    Closed place before ∨ (there = place ∧ id' = id ∧ literal' = literal ∧ Holds place before) ∨ supplies before ≠ [] := by
  cases first with
  | shut =>
    cases before with
    | nil => cases course
    | cons d before =>
      obtain ⟨rfl, -⟩ := List.cons.inj course
      exact .inl ⟨_, _, _, before, rfl⟩
  | stopped none ends =>
    rw [course, supplies_append] at none
    cases (List.append_eq_nil_iff.mp none).2
  | invoked holds =>
    right
    obtain rfl | ⟨c, v, v', rfl⟩ := holds
    · cases before with
      | nil =>
        cases course
        exact .inl ⟨rfl, rfl, rfl, .inl rfl⟩
      | cons d before =>
        obtain ⟨rfl, -⟩ := List.cons.inj course
        exact .inr nofun
    · cases before with
      | nil => cases course
      | cons d before =>
        obtain ⟨rfl, rest⟩ := List.cons.inj course
        cases before with
        | nil =>
          cases rest
          exact .inl ⟨rfl, rfl, rfl, .inr ⟨c, v, v', rfl⟩⟩
        | cons d before =>
          obtain ⟨rfl, -⟩ := List.cons.inj rest
          exact .inr nofun

end Engine

namespace Request

/-- A call comes to a halt at a place where a step asks for its input. -/
structure Asks (audience : Audience) (input : Value) (fuel : Nat) (r : Request) (w : World) (b : Beginning) (e : Execution)
    (place : List Int) (id : String) (literal : Value) : Prop where
  begun : ∃ w₁, r.opening w = .ok b w₁
  ran : ∃ w', r.perform audience input fuel w = .ok e w'
  asked : ∃ halt supplied v v', e.halted? = some (halt, place) ∧
    .invoked id literal supplied place v (.ok (.awaits halt)) v' ∈ deedsOf (r.moments audience input fuel w)

variable {audience audience' : Audience} {input answer : Value} {fuel fuel' : Nat} {r r' : Request} {w w' v : World}
variable {b b' : Beginning} {e : Execution} {place : List Int} {id : String} {literal : Value}

theorem Asks.found (asks : r.Asks audience input fuel w b e place id literal) :
    (∃ gate, Schema.find? b.items place = some (.step id literal gate)) ∧ e.view.cursors = place := by
  obtain ⟨⟨w₁, begun⟩, -, halt, supplied, v, v', halted, asked⟩ := asks
  obtain ⟨i, found, poses⟩ := placed audience input fuel r w begun _ asked
  refine ⟨?_, by simp only [Execution.view, halted, Option.map_some, Option.getD_some]⟩
  cases poses with
  | step => exact ⟨_, found⟩

theorem goOn_begins (begun : (Request.goOn e).opening v = .ok b' w') :
    b'.position = e.view.cursors ∧ ∃ s ∈ v.registry.schemas, b'.items = s.items := by
  have items := (opening_ok begun).1
  obtain ⟨found, _, -, begun⟩ := Engine.Work.bind_ok begun
  obtain ⟨rfl, -⟩ := Executor.beginAt_ok begun
  exact ⟨rfl, items⟩

/-- A call goes on in the schema and at the position in which another one has come to a halt, be it on the same context or
on another one, and whatever has happened to it in between. Then only the step that asked takes the answer, when the call
comes to it first. Every other step is run on its literal input alone, unless the gate of the step that asked no longer
holds. -/
theorem answer_reaches_asker (asks : r.Asks audience input fuel w b e place id literal)
    (begun : r'.opening v = .ok b' w') (items : b'.items = b.items) (position : b'.position = e.view.cursors)
    {before after : List (Engine.Deed World)} {id' : String} {literal' supplied : Value} {there : List Int} {u u' : World}
    {outcome : Except Fault Outcome}
    (course : deedsOf (r'.moments audience' answer fuel' v) = before ++ .invoked id' literal' supplied there u outcome u' :: after) :
    Engine.Closed place before ∨
      (there = place ∧ id' = id ∧ literal' = literal ∧ Engine.Holds place before) ∨
      (supplied = .nothing ∧ b'.call.invokeOn id' literal' there u = Engine.answered outcome u') := by
  obtain ⟨⟨gate, found⟩, cursors⟩ := asks.found
  -- the schema is entered where the step is found
  obtain ⟨f, _, chronicle, -, -⟩ := chronicled audience' answer fuel' begun
  have resumes : (Engine.Part.body r'.level b'.position answer b'.items).ResumesAt place (.step id literal gate) := by
    rw [position, cursors, items]
    exact ⟨rfl, found⟩
  obtain closed | here | earlier := (chronicle.comes_first resumes).invocation course
  · exact .inl closed
  · exact .inr (.inl here)
  · refine .inr (.inr ?_)
    have spends := chronicle.spends
    rw [course, Engine.supplies_append] at spends
    obtain rfl : supplied = .nothing := spends.later earlier
    have ran := done begun (.invoked id' literal' .nothing there u outcome u') (by
      rw [course]
      exact List.mem_append_right before List.mem_cons_self)
    rw [← Call.invoke_nothing]
    exact ⟨rfl, ran⟩

end Request

/-- A step that asks while a list holds anything, and a step that takes whatever it gets. -/
def Schema.guarded : Schema := [.step "ask" .nothing (some (.call (.builtin .len))), .step "take" .nothing none]

def World.guarded : World :=
  { heap := { objects := #[.list #[.int 1]] }
    registry := { steps := [{ id := "ask", handler := .source "input", input := .str "name" }, { id := "take", handler := .source "input" }]
                  schemas := [{ id := .str "guarded", items := Schema.guarded, space := .nothing }] } }

/-- The world in which the list has been emptied. -/
def World.emptied (w : World) : World := { w with heap := w.heap.write 0 (.list #[]) }

def Call.guarded : Call := { schema := .str "guarded", context := .ref 0 }

/-- Whether a call halts at a place where the last step that it has invoked asks by a name. -/
def Execution.isAskingAt (place : List Int) (id : String) (e : Execution) (ds : List (Engine.Deed World)) : Bool :=
  match e.halted?, ds.getLast? with
  | some (⟨.nothing, .nothing, .str name, .nothing⟩, there),
    some (.invoked id' .nothing _ there' _ (.ok (.awaits ⟨.nothing, .nothing, .str name', .nothing⟩)) _) =>
    there == place && there' == place && id' == id && name' == name
  | _, _ => false

theorem Execution.asked_of_isAskingAt {place : List Int} {id : String} {e : Execution} {ds : List (Engine.Deed World)}
    (asking : e.isAskingAt place id ds = true) : ∃ halt supplied v v', e.halted? = some (halt, place) ∧
      .invoked id .nothing supplied place v (.ok (.awaits halt)) v' ∈ ds := by
  unfold isAskingAt at asking
  split at asking
  · next name there id' supplied there' v name' v' halted last =>
    simp only [Bool.and_eq_true, beq_iff_eq] at asking
    obtain ⟨⟨⟨rfl, rfl⟩, rfl⟩, rfl⟩ := asking
    exact ⟨_, supplied, v, v', halted, List.mem_of_getLast? last⟩
  · cases asking

/-- Whether behind a gate a step at some place takes an integer. -/
def Engine.isTakenAt (place : List Int) (id : String) (n : Int) : List (Deed World) → Bool
  | .checked _ _ _ _ _ _ :: .invoked id' _ (.int m) there _ _ _ :: _ => there == place && id' == id && m == n
  | _ => false

theorem Engine.taken_of_isTakenAt {place : List Int} {id : String} {n : Int} {ds : List (Deed World)}
    (taken : isTakenAt place id n ds = true) : ∃ gate literal v answer v' rest,
      ds = gate :: .invoked id literal (.int n) place v answer v' :: rest ∧ gate.supplied? = none := by
  unfold isTakenAt at taken
  split at taken
  · simp only [Bool.and_eq_true, beq_iff_eq] at taken
    obtain ⟨⟨rfl, rfl⟩, rfl⟩ := taken
    exact ⟨_, _, _, _, _, _, rfl, rfl⟩
  · cases taken

/-- When the gate of the step that asked no longer holds, the next step takes the answer. -/
theorem Request.closed_gate_leaks_answer : ∃ e w', (Request.start .guarded).Asks .silent .nothing 1 .guarded
      ⟨.guarded, Schema.guarded, []⟩ e [0] "ask" .nothing ∧
    (Request.start .guarded).perform .silent .nothing 1 .guarded = .ok e w' ∧
    ∃ gate literal v answer v' rest, deedsOf ((Request.goOn e).moments .silent (.int 7) 1 w'.emptied) =
      gate :: .invoked "take" literal (.int 7) [1] v answer v' :: rest := by
  have plays : Engine.passes (fun e w =>
      e.isAskingAt [0] "ask" (deedsOf ((Request.start .guarded).moments .silent .nothing 1 .guarded)) &&
      Engine.isTakenAt [1] "take" 7 (deedsOf ((Request.goOn e).moments .silent (.int 7) 1 w.emptied)))
      ((Request.start .guarded).perform .silent .nothing 1 .guarded) = true := by decide +kernel
  obtain ⟨e, w', ran, plays⟩ := Engine.exists_of_passes plays
  obtain ⟨asking, taken⟩ := Bool.and_eq_true_iff.mp plays
  obtain ⟨gate, literal, v, answer, v', rest, course, -⟩ := Engine.taken_of_isTakenAt taken
  refine ⟨e, w', ⟨⟨_, rfl⟩, ⟨w', ran⟩, Execution.asked_of_isAskingAt asking⟩, ran, gate, literal, v, answer, v', rest, course⟩

/-- Whether behind a gate that holds two steps are invoked, of which the first one takes an integer. -/
def Engine.isServed (n : Int) : List (Deed World) → Bool
  | [.checked _ _ _ _ (.ok (.ok true)) _, .invoked _ _ (.int m) place _ _ _, .invoked id _ _ there _ _ _] =>
    m == n && place == [0] && id == "take" && there == [1]
  | _ => false

theorem Engine.served_of_isServed {n : Int} {ds : List (Deed World)} (served : isServed n ds = true) :
    ∃ asked before literal supplied v answer v', ds = before ++ [.invoked "take" literal supplied [1] v answer v'] ∧
      ¬ Closed [0] before ∧ asked ∈ before ∧ asked.supplied? = some (.int n) ∧ asked.place = [0] := by
  unfold isServed at served
  split at served
  · next role c place w w' id literal m there u answer u' id' literal' supplied there' v answer' v' =>
    simp only [Bool.and_eq_true, beq_iff_eq] at served
    obtain ⟨⟨⟨rfl, rfl⟩, rfl⟩, rfl⟩ := served
    refine ⟨.invoked id literal (.int m) [0] u answer u', [_, _], literal', supplied, v, answer', v', rfl, ?_,
      List.mem_cons_of_mem _ List.mem_cons_self, rfl, rfl⟩
    rintro ⟨c, x, x', rest, same⟩
    cases same
  · cases served

/-- When the gate still holds, the step that asked takes the answer, and the next one is run on its literal input. -/
theorem Request.held_gate_keeps_answer : ∃ e w' asked before literal v answer v',
    (Request.start .guarded).perform .silent .nothing 1 .guarded = .ok e w' ∧
    deedsOf ((Request.goOn e).moments .silent (.int 7) 1 w') = before ++ [.invoked "take" literal .nothing [1] v answer v'] ∧
    asked ∈ before ∧ asked.supplied? = some (.int 7) ∧ asked.place = [0] ∧
    ∃ call : Call, call.invokeOn "take" literal [1] v = Engine.answered answer v' := by
  have plays : Engine.passes (fun e w =>
      e.isAskingAt [0] "ask" (deedsOf ((Request.start .guarded).moments .silent .nothing 1 .guarded)) &&
      Engine.isServed 7 (deedsOf ((Request.goOn e).moments .silent (.int 7) 1 w)))
      ((Request.start .guarded).perform .silent .nothing 1 .guarded) = true := by decide +kernel
  obtain ⟨e, w', ran, plays⟩ := Engine.exists_of_passes plays
  obtain ⟨asking, served⟩ := Bool.and_eq_true_iff.mp plays
  obtain ⟨asked, before, literal, supplied, v, answer, v', course, unclosed, member, took, place⟩ :=
    Engine.served_of_isServed served
  have asks : (Request.start .guarded).Asks .silent .nothing 1 .guarded ⟨.guarded, Schema.guarded, []⟩ e [0] "ask" .nothing :=
    ⟨⟨_, rfl⟩, ⟨w', ran⟩, Execution.asked_of_isAskingAt asking⟩
  have heeds : Audience.silent.Heeds SameRegistry := fun _ _ _ => rfl
  have same : w'.registry = World.guarded.registry :=
    (SameRegistry.tolerant.start (fun _ _ => trivial) heeds .guarded .nothing 1).ok ran
  cases begun : (Request.goOn e).opening w' with
  | error fault v₁ =>
    rw [moments, begun] at course
    cases before <;> cases course
  | ok b v₁ =>
    obtain ⟨position, s, stored, items⟩ := goOn_begins begun
    rw [same] at stored
    obtain rfl := List.mem_singleton.mp stored
    obtain closed | ⟨impossible, -⟩ | ⟨rfl, ran'⟩ := answer_reaches_asker asks begun items position course
    · exact absurd closed unclosed
    · cases impossible
    · exact ⟨e, w', asked, before, literal, v, answer, v', ran, course, member, took, place, b.call, ran'⟩

end Workflow
