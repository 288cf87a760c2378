import Workflow.Proofs.Retries
import Workflow.Proofs.Snapshots

/-! Positions that callers give. One that the schema does not admit is refused before anything is run, and from
any other a call does what is left of the schema there, with every deed at a position of the schema. Only a
position in plain data is kept from counting from the end of a row. -/

namespace Workflow.Engine
open Script (Value)

section
variable {σ : Type} {s : Scene σ}

/-- Every deed is about something that stands at its place, where places are told from a position on. -/
def Stand (holds : Query → Position → Prop) (here : Position) (ds : List (Deed σ)) : Prop :=
  ∀ d ∈ ds, ∃ place, d.At (here ++ place).cursors ∧ holds d.query place

namespace Stand
variable {holds other : Query → Position → Prop} {here : Position} {ds es : List (Deed σ)}

theorem nil : Stand holds here ([] : List (Deed σ)) := nofun

theorem one {d : Deed σ} {place : Position} (placed : d.At (here ++ place).cursors) (stands : holds d.query place) :
    Stand holds here [d] := by
  intro e member
  cases List.mem_singleton.mp member
  exact ⟨place, placed, stands⟩

theorem append (first : Stand holds here ds) (rest : Stand holds here es) : Stand holds here (ds ++ es) :=
  fun d member => (List.mem_append.mp member).elim (first d) (rest d)

theorem mono (stand : Stand holds here ds) (implies : ∀ q place, holds q place → other q place) :
    Stand other here ds := by
  intro d member
  obtain ⟨place, placed, stands⟩ := stand d member
  exact ⟨place, placed, implies _ _ stands⟩

/-- What stands in the item at a cursor stands in its row. -/
theorem under {cursor : Nat} (stand : Stand holds (here ++ [cursor]) ds)
    (implies : ∀ q place, holds q place → other q (cursor :: place)) : Stand other here ds := by
  intro d member
  obtain ⟨place, placed, stands⟩ := stand d member
  rw [List.append_assoc] at placed
  exact ⟨cursor :: place, placed, implies _ _ stands⟩

theorem row {cursor : Nat} {i : Item} {items : List Item} {p : Progress} {f : Finish}
    (first : Stand ((Task.item i p).Holds · ·) (here ++ [cursor]) ds)
    (rest : Stand ((Task.rest cursor items f).Holds · ·) here es) :
    Stand ((Task.row cursor (i :: items) p).Holds · ·) here (ds ++ es) := by
  have inside : Stand ((Task.row cursor (i :: items) p).Holds · ·) here ds :=
    first.under (fun _ _ holds => Task.Holds.first holds)
  exact inside.append (rest.mono (fun _ _ => Task.Holds.later))

theorem rounds {test : Condition} {items : List Item} {p : Progress} {f : Finish}
    (body : Stand (Schema.Holds items) here ds) (rest : Stand ((Task.rounds test items p f).Holds · ·) here es) :
    Stand ((Task.loop test items p).Holds · ·) here (ds ++ es) := by
  have inside : Stand ((Task.loop test items p).Holds · ·) here ds := body.mono (fun _ _ => .inl)
  exact inside.append rest

end Stand

theorem Checks.stand {here stepId role c w ds answer w'} {holds : Query → Position → Prop} {place : Position}
    (checks : Checks s here stepId role c w ds answer w') (stands : holds (.check role c) place)
    (placed : ∀ answer after, (Deed.checked role c here.cursors w answer after).At (here ++ place).cursors) :
    Stand holds here ds := by
  cases checks with
  | told => exact .one (placed _ _) stands
  | untold => exact .one (placed _ _) stands
  | halted => exact .one (placed _ _) stands
  | failed => exact .one (placed _ _) stands

theorem Invokes.stand {here id literal supplied w as ds f w'} {holds : Query → Position → Prop}
    (invokes : Invokes s here id literal supplied w as ds f w') (stands : holds (.invoke id literal) []) :
    Stand holds here ds := by
  have one (supplied : Value) (w : σ) (answer : Except Fault Outcome) (after : σ) :
      Stand holds here [.invoked id literal supplied here.cursors w answer after] :=
    .one (by rw [List.append_nil]; rfl) stands
  induction invokes with
  | told => exact one _ _ _ _
  | untold => exact one _ _ _ _
  | failed => exact one _ _ _ _
  | again asked told waited rest ih => exact (one _ _ _ _).append ih

theorem Checks.stand_here {here stepId role c w ds answer w'} {holds : Query → Position → Prop}
    (checks : Checks s here stepId role c w ds answer w') (stands : holds (.check role c) []) (decides : role ≠ .test) :
    Stand holds here ds := by
  refine checks.stand stands (fun answer after => ?_)
  rw [List.append_nil]
  cases role with
  | test => exact absurd rfl decides
  | gate => rfl
  | marker => rfl

theorem Checks.stand_test {here stepId test w ds answer w'} {items : List Item} {p : Progress}
    (checks : Checks s here stepId .test test w ds answer w') :
    Stand ((Task.loop test items p).Holds · ·) here ds :=
  checks.stand (.inr ⟨rfl, rfl⟩) (fun _ _ => by simp [Deed.At])

/-- Whatever a program does, it does at a place of the program. -/
theorem Runs.stand {here t w as ds f w'} (runs : Runs s here t w as ds f w') : Stand (t.Holds · ·) here ds := by
  induction runs with
  | row_end => exact .nil
  | row first rest ih next => exact ih.row next
  | rest next ih => exact ih
  | leave => exact .nil
  | free free inside ih => exact ih
  | opened gated gate inside ih => exact (gate.stand_here (.gate gated) nofun).append ih
  | closed gated gate closed => exact gate.stand_here (.gate gated) nofun
  | marker marker => exact marker.stand_here .marker nofun
  | step step => exact step.stand .step
  | block body ih => exact ih.mono (fun _ _ => Schema.Holds.within rfl)
  | @loop here test items gate p w as ds f w' loop ih =>
    exact ih.mono (fun _ _ => Task.Holds.within (p := p) (f := f))
  | tested tested ended => exact tested.stand_test
  | iteration tested body rounds ih next =>
    rw [List.append_assoc]
    exact tested.stand_test.append (ih.rounds next)
  | again again loop ih => exact ih
  | ended => exact .nil
  | body told row closes ih => exact ih.mono (fun _ _ => Task.Holds.whole)
  | body_untold => exact .nil

theorem Resumes.stand {here t position w as ds f w'} (resumes : Resumes s here t position w as ds f w') :
    Stand (t.Holds · ·) here ds := by
  induction resumes with
  | row row => exact row.stand
  | later later row ih => exact ih.mono (fun _ _ => Task.Holds.later)
  | item item rest ih => exact ih.row rest.stand
  | block body ih => exact ih.mono (fun _ _ => Schema.Holds.within rfl)
  | @loop here test items gate p next deeper w as ds f w₁ bs es g w₂ body rounds ih =>
    exact (ih.rounds rounds.stand).mono (fun _ _ => Task.Holds.within (p := p) (f := f))
  | body told row closes ih => exact ih.mono (fun _ _ => Task.Holds.whole)
  | body_untold => exact .nil

theorem Proceeds.stand {level : Level} {items : Schema} {input : Value} {position : Position} {w as ds f w'}
    (proceeds : Proceeds s level items input position w as ds f w') : Stand (Schema.Holds items) [] ds := by
  cases position with
  | nil =>
    have runs : Runs s [] (.body level items input) w as ds f w' := proceeds
    exact runs.stand
  | cons next deeper =>
    have resumes : Resumes s [] (.body level items input) (next :: deeper) w as ds f w' := proceeds
    exact resumes.stand

end

end Workflow.Engine

namespace Workflow
open Script (Act Addr Entries Heap RenderFault Value)
open Engine (Deed Finish Opening Position Proceeds Spent Stand answered deeds)

theorem checkCursors_start (position : Position) (items : List Item) (inLoop : Bool) (depth bound : Nat) :
    checkCursors items inLoop depth position.cursors ≠ .error (.beforeStart bound) := by
  intro early
  induction position generalizing items inLoop depth with
  | nil => cases early
  | cons next deeper ih =>
    rw [Engine.Position.cursors_cons, checkCursors, itemAt?_natCast] at early
    split at early
    · cases early
    split at early
    · cases early
    · next inside =>
      have inside : next < items.length := by omega
      rw [List.getElem?_eq_getElem inside] at early
      dsimp only at early
      split at early
      · cases early
      split at early
      · cases early
      · exact ih _ _ _ early

/-- A position that the schema does not admit is refused for what it is, and not for counting from the end. -/
theorem Schema.checkPosition_refuses {items : Schema} {position : Position} (other : ¬ items.Admits position) :
    ∃ fault, items.checkPosition position.cursors = .error fault ∧ ∀ depth, fault ≠ .beforeStart depth := by
  cases checked : items.checkPosition position.cursors with
  | ok => exact absurd ((items.checkPosition_iff position).mp checked) other
  | error fault =>
    refine ⟨fault, rfl, ?_⟩
    rintro depth rfl
    unfold Schema.checkPosition at checked
    split at checked
    · cases checked
    · exact checkCursors_start position items false 0 depth checked

/-- What a refusal leaves of a world: the world, with an error in it if a number could not be written. -/
inductive World.Refuses (w : World) : Fault → World → Prop where
  | invalid (cause : Invalid) : Refuses w (.invalid cause) w
  | unwritable : Refuses w (.stopped (.raised (.ref w.heap.objects.size)))
      { w with heap := (w.heap.alloc (.error .value [.str Number.unwritable] #[])).2 }

theorem World.Refuses.isValue {w w' : World} {fault : Fault} (refuses : w.Refuses fault w') :
    fault.isValue w'.heap = true := by
  cases refuses with
  | invalid => rfl
  | unwritable =>
    simp only [Fault.isValue, Fault.raisedClass?, Heap.object_of_getElem? (w.heap.alloc_found _)]
    rfl

namespace State
variable {context v : Value} {cursors : List Int} {w : World}

/-- A state that was made with a context and a position of some whole numbers, which nothing has checked. -/
def InRecord (context : Value) (cursors : List Int) (v : Value) (h : Heap) : Prop :=
  ∃ a fields indexes, v = .ref a ∧ h.object a = .record .flowState fields ∧
    Script.Fields.get? fields "context" = some context ∧ Script.Fields.get? fields "indexes" = some indexes ∧
    indexes.listItems? h = some (cursors.map Value.int).toArray

theorem cursorsOf_ints (cursors : List Int) : cursorsOf (cursors.map Value.int) w = .ok cursors w := by
  induction cursors with
  | nil => rfl
  | cons n rest ih =>
    simp only [List.map_cons, cursorsOf, Value.int?, Bind.bind, EStateM.bind, ih]
    rfl

theorem rowOf_list {indexes : Value} {items : Array Value} {h : Heap} (listed : indexes.listItems? h = some items) :
    rowOf indexes h = .ok items h := by
  unfold Value.listItems? at listed
  split at listed
  · next a =>
    split at listed
    · next found =>
      cases listed
      simp only [rowOf, Bind.bind, EStateM.bind, Act.object, found]
      rfl
    · cases listed
  · cases listed

theorem ofValue_inRecord (given : InRecord context cursors v w.heap) : ofValue v w = .ok ⟨context, cursors⟩ w := by
  obtain ⟨a, fields, indexes, rfl, found, held, placed, listed⟩ := given
  have read : Job.act (rowOf indexes) w = .ok (cursors.map Value.int).toArray w := by
    simp only [Job.act, rowOf_list listed]
  simp only [ofValue, Bind.bind, EStateM.bind, Script.get_result, found, held, placed, Option.getD_some, read,
    cursorsOf_ints]
  rfl

theorem ints_text (write : Value → Except RenderFault String) (cursors : List Int)
    (plain : ∀ n, write (.int n) = Script.integerText n) :
    (∃ texts, (cursors.map Value.int).mapM write = .ok texts) ∨
      (cursors.map Value.int).mapM write = .error .longNumber := by
  induction cursors with
  | nil => exact .inl ⟨[], rfl⟩
  | cons n rest ih =>
    rw [List.map_cons, List.mapM_cons, plain, Script.integerText]
    split
    · exact .inr rfl
    · obtain ⟨texts, written⟩ | long := ih
      · exact .inl ⟨_, by rw [written]; rfl⟩
      · exact .inr (by rw [long]; rfl)

theorem quoted_list {a : Addr} {items : Array Value} {h : Heap} (found : h.object a = .list items) :
    Value.quoted h (.ref a) = (do
      return s!"[{Script.commas (← items.toList.mapM (Value.write h 899 [a] true))}]") := by
  have opened : Value.quoted h (.ref a) = (h.object a).write h a (Value.write h 899 [a]) true := rfl
  rw [opened, found]
  rfl

/-- A list of whole numbers can be written, unless one of them is too long. -/
theorem quoted_ints {indexes : Value} {h : Heap} (listed : indexes.listItems? h = some (cursors.map Value.int).toArray) :
    (∃ text, indexes.quoted h = .ok text) ∨ indexes.quoted h = .error .longNumber := by
  unfold Value.listItems? at listed
  split at listed
  · next a =>
    split at listed
    · next found =>
      cases listed
      rw [quoted_list found]
      obtain ⟨texts, written⟩ | long := ints_text (Value.write h 899 [a] true) cursors (fun _ => rfl)
      · exact .inl ⟨_, by rw [written]; rfl⟩
      · exact .inr (by rw [long]; rfl)
    · cases listed
  · cases listed

/-- Plain data whose position counts from the end of a row is refused. -/
theorem ofData_refuses (given : InData context cursors v w.heap) (negative : ¬ ∀ n ∈ cursors, 0 ≤ n) :
    ∃ fault w', w.Refuses fault w' ∧ ofData v w = .error fault w' := by
  obtain ⟨entries, mapping, rfl, placed⟩ := given
  simp only [ofData, Bind.bind, EStateM.bind, Script.get_result, mapping]
  cases named : Entries.named? entries "indexes" with
  | none =>
    rw [named] at placed
    subst placed
    exact absurd (by simp) negative
  | some indexes =>
    rw [named] at placed
    have refused : ¬ (cursors.map Value.int).toArray.all isIndex = true := mt (indexed_iff cursors).mp negative
    simp only [placed, Option.filter_some, if_neg refused]
    obtain ⟨text, quoted⟩ | long := quoted_ints placed
    · exact ⟨_, _, .invalid (.notIndexes text),
        by simp only [Job.act, Act.quoted, Act.rendered, Bind.bind, EStateM.bind, Script.get_result, quoted]; rfl⟩
    · exact ⟨_, _, .unwritable,
        by simp only [Job.act, Act.quoted, Act.rendered, Bind.bind, EStateM.bind, Script.get_result, long]; rfl⟩

/-- A value stands for a context and a position of some whole numbers, of which those of a state that was made
before do not count from the end of a row. -/
def Given (context : Value) (cursors : List Int) (v : Value) (h : Heap) : Prop :=
  InData context cursors v h ∨ InRecord context cursors v h ∧ ∀ n ∈ cursors, 0 ≤ n

theorem Given.read (given : Given context cursors v w.heap) :
    (ofValue v w = .ok ⟨context, cursors⟩ w ∧ ∃ position : Position, position.cursors = cursors) ∨
      (¬ ∃ position : Position, position.cursors = cursors) ∧ ∃ fault w', w.Refuses fault w' ∧ ofValue v w = .error fault w' := by
  obtain data | ⟨record, positive⟩ := given
  · obtain ⟨entries, mapping, -⟩ := id data
    rw [ofValue_mapping mapping]
    by_cases positive : ∀ n ∈ cursors, 0 ≤ n
    · exact .inl ⟨ofData_inData data positive, Engine.Position.exists_of_nonneg positive⟩
    · refine .inr ⟨?_, ofData_refuses data positive⟩
      rintro ⟨position, rfl⟩
      exact positive position.cursors_nonneg
  · exact .inl ⟨ofValue_inRecord record, Engine.Position.exists_of_nonneg positive⟩

end State

namespace Executor
variable {audience : Audience} {id : String} {items : Schema} {w : World}

/-- What is said of a position that is refused. -/
def refusal (id : String) (cursors : List Int) : PositionFault → Invalid
  | .missing => .noPosition id
  | .outOfRange depth => .outOfRange id (positionText cursors) depth
  | .notBlock depth | .beforeStart depth => .notBlock id (positionText cursors) depth

theorem resumeAt_refuses {call : Call} (named : call.schema = .str id) {cursors : List Int} {fault : PositionFault}
    (checked : items.checkPosition cursors = .error fault) (inside : ∀ depth, fault ≠ .beforeStart depth)
    (input : Value) (fuel : Nat) :
    resumeAt audience call items cursors input fuel w = .error (.invalid (refusal id cursors fault)) w := by
  simp only [resumeAt, Bind.bind, EStateM.bind, named, shown_text, checked]
  cases fault with
  | beforeStart depth => exact absurd rfl (inside depth)
  | _ => rfl

theorem resumeState_of_read {found : RegisteredSchema} {state : State} {job : Job State}
    (registered : w.registry.schema? (.str id) = some found) (read : job w = .ok state w) (input : Value)
    (listener : Option Nat) (fuel : Nat) :
    resumeState audience (.str id) job input listener fuel w =
      resumeAt audience { schema := .str id, context := state.context, listener } found.items state.position input fuel w := by
  simp only [resumeState, Bind.bind, EStateM.bind, schema_registered registered, read]

theorem resumeState_of_unread {found : RegisteredSchema} {fault : Fault} {w' : World} {job : Job State}
    (registered : w.registry.schema? (.str id) = some found) (unread : job w = .error fault w') (input : Value)
    (listener : Option Nat) (fuel : Nat) :
    resumeState audience (.str id) job input listener fuel w = .error fault w' := by
  simp only [resumeState, Bind.bind, EStateM.bind, schema_registered registered, unread]

/-- A call that a caller lets go on from a position is refused with an error of value, before it does anything,
unless the schema admits the position. From a position that it admits the call does what is left of the schema
there, beginning with what stands there, and whatever it does stands at a position of the schema. -/
theorem resume_goes_on_iff_admitted {context v : Value} {cursors : List Int} (registered : w.Registers id items)
    (given : State.Given context cursors v w.heap) :
    ((∀ position : Position, position.cursors = cursors → ¬ items.Admits position) →
      ∃ fault w', w.Refuses fault w' ∧ fault.isValue w'.heap ∧
        ∀ audience input listener, resume audience (.str id) v input listener w = .error fault w') ∧
    ∀ position : Position, position.cursors = cursors → items.Admits position → ∀ audience input listener,
      let call : Call := ⟨.str id, context, listener⟩
      let begun := w.resuming id cursors
      let ds := deeds (call.host audience) loopFuel .resumed items cursors input begun
      Spent (resume audience (.str id) v input listener w) ∨
        ∃ f w', Proceeds (call.host audience).scene .resumed items input position begun [] ds f w' ∧
          resume audience (.str id) v input listener w = answered (f.execution call) w' ∧
          Stand (Schema.Holds items) [] ds ∧
          ∀ q, Schema.Holds items q position → Opening (Schema.gateAt? items position) q position position ds f := by
  obtain ⟨found, registered, rfl⟩ := registered
  constructor
  · intro other
    obtain ⟨read, position, rfl⟩ | ⟨-, fault, w', refuses, unread⟩ := given.read
    · obtain ⟨fault, checked, inside⟩ := found.items.checkPosition_refuses (other position rfl)
      refine ⟨_, w, .invalid (refusal id position.cursors fault), rfl, fun audience input listener => ?_⟩
      exact (resumeState_of_read registered read input listener loopFuel).trans
        (resumeAt_refuses rfl checked inside input loopFuel)
    · exact ⟨fault, w', refuses, refuses.isValue, fun _ _ _ => resumeState_of_unread registered unread _ _ _⟩
  · rintro position rfl admits audience input listener call begun ds
    obtain ⟨read, -⟩ | ⟨missing, -⟩ := given.read
    · have passes := (Schema.checkPosition_iff _ _).mpr admits
      have resumed : resume audience (.str id) v input listener w =
          run audience call .resumed found.items position.cursors input loopFuel begun :=
        resumeState_eq registered read passes input listener loopFuel
      rw [resumed]
      have opens : Engine.Schema.Opens found.items position := .inr admits
      obtain ⟨w', spent⟩ | ⟨f, w', proceeds, ran⟩ :=
        Engine.run_proceeds (call.host audience) .resumed input begun opens loopFuel
      · have spent : Engine.run (call.host audience) loopFuel .resumed found.items position.cursors input begun =
            answered (.error (.stopped .exhausted)) w' := spent
        exact .inl ⟨w', run_eq spent⟩
      · exact .inr ⟨f, w', proceeds, run_eq ran, proceeds.stand, fun q holds => holds.opening rfl proceeds⟩
    · exact absurd ⟨position, rfl⟩ missing

end Executor

def Schema.pair : Schema := [.step "first" (.int 1) none, .step "second" (.int 2) none]

/-- A world with a position, a state that was made with it, and plain data with it. -/
def World.pair (cursors : List Int) : World :=
  { heap := { objects := #[
      .list (cursors.map Value.int).toArray,
      .record .flowState #[("context", .int 3), ("indexes", .ref 0)],
      .dict #[(.str "context", .int 3), (.str "indexes", .ref 0)]] }
    registry := { steps := [{ id := "first", handler := .call (.builtin .max) },
                            { id := "second", handler := .call (.builtin .max) }]
                  schemas := [{ id := .str "pair", items := Schema.pair, space := .nothing }] } }

/-- A state that was made before may count from the end of a row. The call goes on at the last item, and then does
the whole row once more. -/
theorem Executor.counting_back_goes_on : ∃ e w',
    (World.pair [-1]).Registers "pair" Schema.pair ∧ State.InRecord (.int 3) [-1] (.ref 1) (World.pair [-1]).heap ∧
      (∀ position : Position, position.cursors = [-1] → ¬ Schema.Admits Schema.pair position) ∧
      resume .silent (.str "pair") (.ref 1) .nothing none (.pair [-1]) = .ok e w' ∧ e.view.finished ∧
      (deeds (Call.host .silent ⟨.str "pair", .int 3, none⟩) loopFuel .resumed Schema.pair [-1] .nothing
        ((World.pair [-1]).resuming "pair" [-1])).length = 3 := by
  have finishes : Engine.passes (fun e _ => e.view.finished)
    (resume .silent (.str "pair") (.ref 1) .nothing none (.pair [-1])) = true := by decide +kernel
  obtain ⟨e, w', ran, finished⟩ := Engine.exists_of_passes finishes
  refine ⟨e, w', ⟨_, rfl, rfl⟩, ⟨1, _, _, rfl, rfl, rfl, rfl, rfl⟩, ?_, ran, finished, by decide +kernel⟩
  intro position same
  have positive := position.cursors_nonneg
  rw [same] at positive
  exact absurd (positive (-1) (by simp)) (by decide)

/-- In plain data, the last item of two can be gone on with, and a third one or one before the first is refused. -/
theorem Executor.pair_goes_on_iff_admitted :
    (∃ fault w', resume .silent (.str "pair") (.ref 2) .nothing none (.pair [2]) = .error fault w') ∧
    (∃ fault w', resume .silent (.str "pair") (.ref 2) .nothing none (.pair [-1]) = .error fault w') ∧
    ∃ f w', Proceeds (Call.host .silent ⟨.str "pair", .int 3, none⟩).scene .resumed Schema.pair .nothing [1]
      ((World.pair [1]).resuming "pair" [1]) [] (deeds (Call.host .silent ⟨.str "pair", .int 3, none⟩) loopFuel .resumed
        Schema.pair [1] .nothing ((World.pair [1]).resuming "pair" [1])) f w' := by
  have given (cursors : List Int) : State.Given (.int 3) cursors (.ref 2) (World.pair cursors).heap :=
    .inl ⟨_, rfl, rfl, rfl⟩
  have registered (cursors : List Int) : (World.pair cursors).Registers "pair" Schema.pair := ⟨_, rfl, rfl⟩
  have refuses (cursors : List Int) (other : ∀ position : Position, position.cursors = cursors →
      ¬ Schema.Admits Schema.pair position) :
      ∃ fault w', resume .silent (.str "pair") (.ref 2) .nothing none (.pair cursors) = .error fault w' := by
    obtain ⟨fault, w', -, -, refused⟩ :=
      (resume_goes_on_iff_admitted (registered cursors) (given cursors)).1 other
    exact ⟨fault, w', refused _ _ _⟩
  refine ⟨refuses [2] ?_, refuses [-1] ?_, ?_⟩
  · intro position same admits
    cases Engine.Position.cursors_injective (same.trans (show [2] = Position.cursors [2] from rfl))
    obtain ⟨i, found, -⟩ := admits
    cases found
  · intro position same
    have positive := position.cursors_nonneg
    rw [same] at positive
    exact absurd (positive (-1) (by simp)) (by decide)
  · have finishes : Engine.passes (fun e _ => e.view.finished)
      (resume .silent (.str "pair") (.ref 2) .nothing none (.pair [1])) = true := by decide +kernel
    obtain ⟨w', spent⟩ | ⟨f, w', proceeds, -⟩ :=
      (resume_goes_on_iff_admitted (registered [1]) (given [1])).2 [1] rfl ⟨_, rfl, .here⟩ .silent .nothing none
    · rw [spent] at finishes
      cases finishes
    · exact ⟨f, w', proceeds⟩

end Workflow
