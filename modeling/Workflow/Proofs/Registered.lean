import Workflow.Proofs.Contexts
import Workflow.Proofs.Keeping
import Workflow.Proofs.Refusals

/-! What is registered. Calls leave the registry as it is, and of the objects that it holds they change none but
those that a condition or a step changes: literal inputs and globals are handed out as they are. -/

namespace Workflow
open Script (Act Addr Heap Value)
open Engine (Deed deeds)

mutual

/-- The values in an item: literal inputs and conditions. -/
def Item.values : Item → List Value
  | .step _ literal gate => literal :: (gate.map Condition.value).toList
  | .block items gate => (gate.map Condition.value).toList ++ Item.valuesOf items
  | .loop test items gate => test.value :: (gate.map Condition.value).toList ++ Item.valuesOf items
  | .marker _ test => [test.value]

def Item.valuesOf : List Item → List Value
  | [] => []
  | i :: rest => i.values ++ Item.valuesOf rest

end

/-- The values in a step: its handler, the input that it asks for, and its globals. -/
def Step.values (s : Step) : List Value :=
  s.handler.value :: s.input :: s.globals.toList.flatMap (fun (key, v) => [key, v])

def Registry.values (r : Registry) : List Value :=
  r.steps.flatMap Step.values ++ r.schemas.flatMap (fun s => s.id :: s.space :: Item.valuesOf s.items)

/-- An object is part of what is registered. -/
def World.Holds (w : World) (a : Addr) : Prop := ∃ v ∈ w.registry.values, w.heap.Reaches v a

/-- Some objects are the same in two worlds. -/
def Spares (kept : Addr → Prop) (w w' : World) : Prop :=
  ∀ a o, kept a → w.heap.objects[a]? = some o → w'.heap.objects[a]? = some o

theorem Spares.tolerant (kept : Addr → Prop) : Tolerant Heap.Extends (Spares kept) where
  refl _ _ _ _ found := found
  trans first second a o member found := second a o member (first a o member found)
  heap _ _ grows a o _ found := grows a o found
  compiled _ _ _ _ _ _ _ found := found
  logged _ _ _ _ _ found := found

def SameRegistry (w w' : World) : Prop := w'.registry = w.registry

theorem SameRegistry.tolerant : Tolerant (fun _ _ => True) SameRegistry where
  refl _ := rfl
  trans first second := Eq.trans second first
  heap _ _ _ := rfl
  compiled _ _ _ _ := rfl
  logged _ _ := rfl

namespace Executor
variable {audience : Audience} {id : String} {w : World}

/-- The deeds of a start. -/
def startDeeds (audience : Audience) (call : Call) (id : String) (input : Value) (fuel : Nat) (w : World) :
    List (Deed World) :=
  match w.registry.schema? (.str id) with
  | some found => deeds (call.host audience) fuel .started found.items [] input (w.starting id)
  | none => []

/-- The deeds of a call that goes on from a position, if the schema admits it. -/
def deedsAt (audience : Audience) (call : Call) (id : String) (items : Schema) (position : List Int) (input : Value)
    (fuel : Nat) (w : World) : List (Deed World) :=
  match items.checkPosition position with
  | .ok () => deeds (call.host audience) fuel .resumed items position input (w.resuming id position)
  | .error _ => []

/-- The deeds of a call that goes on from a state. -/
def resumeDeeds (audience : Audience) (id : String) (state : Job State) (input : Value) (listener : Option Nat)
    (fuel : Nat) (w : World) : List (Deed World) :=
  match w.registry.schema? (.str id), state w with
  | some found, .ok s w' => deedsAt audience ⟨.str id, s.context, listener⟩ id found.items s.position input fuel w'
  | _, _ => []

theorem schema_missing (missing : w.registry.schema? (.str id) = none) :
    schema (.str id) w = .error (.unknownSchema (.str id)) w := by
  have key : Job.act (Act.checkKey (.str id)) w = .ok () w := rfl
  simp only [schema, Bind.bind, EStateM.bind, key, Script.get_result, missing]
  rfl

theorem leftBy_run {call : Call} {level items position input fuel} :
    leftBy (run audience call level items position input fuel w) =
      leftBy (Engine.run (call.host audience) fuel level items position input w) := by
  obtain ⟨r, w', ran⟩ := Engine.exists_answered (Engine.run (call.host audience) fuel level items position input w)
  rw [run_eq ran, ran]
  cases r <;> rfl

variable {S : World → World → Prop} (tolerant : Tolerant Heap.Extends S) (heeds : audience.Heeds S)
include tolerant heeds

theorem run_follows {call : Call} {level items position input fuel}
    (each : ∀ d ∈ deeds (call.host audience) fuel level items position input w, S d.before d.after) :
    S w (leftBy (run audience call level items position input fuel w)) := by
  rw [leftBy_run]
  exact Engine.run_follows tolerant.toLasting (fun event v => tolerant.emit (fun _ _ grows => grows.objects) heeds call event v) each

/-- What goes along with each deed of a start goes along with the start. -/
theorem start_follows {call : Call} (named : call.schema = .str id) {input : Value} {fuel : Nat}
    (each : ∀ d ∈ startDeeds audience call id input fuel w, S d.before d.after) :
    S w (leftBy (start audience call input fuel w)) := by
  unfold startDeeds at each
  cases registered : w.registry.schema? (.str id) with
  | none =>
    have missing : start audience call input fuel w = .error (.unknownSchema (.str id)) w := by
      simp only [start, Bind.bind, EStateM.bind, named, schema_missing registered]
    rw [missing]
    exact tolerant.refl w
  | some found =>
    rw [registered] at each
    rw [start_eq named (by rw [named]; exact registered)]
    exact tolerant.trans (tolerant.logged w _) (run_follows tolerant heeds each)

theorem resumeAt_follows {call : Call} (named : call.schema = .str id) {items : Schema} {position : List Int}
    {input : Value} {fuel : Nat} (each : ∀ d ∈ deedsAt audience call id items position input fuel w, S d.before d.after) :
    S w (leftBy (resumeAt audience call items position input fuel w)) := by
  unfold deedsAt at each
  cases checked : items.checkPosition position with
  | ok =>
    rw [checked] at each
    rw [resumeAt_eq named checked]
    exact tolerant.trans (tolerant.logged w _) (run_follows tolerant heeds each)
  | error fault =>
    simp only [resumeAt, Bind.bind, EStateM.bind, named, shown_text, checked]
    cases fault with
    | beforeStart depth => exact tolerant.adds (fun _ _ grows => grows.objects) (Act.fail_grows _ _) w
    | _ => exact tolerant.refl w

/-- What goes along with each deed of a call that goes on, and with reading its state, goes along with the call. -/
theorem resumeState_follows {state : Job State} {input : Value} {listener : Option Nat} {fuel : Nat}
    (read : S w (leftBy (state w)))
    (each : ∀ d ∈ resumeDeeds audience id state input listener fuel w, S d.before d.after) :
    S w (leftBy (resumeState audience (.str id) state input listener fuel w)) := by
  unfold resumeDeeds at each
  cases registered : w.registry.schema? (.str id) with
  | none =>
    simp only [resumeState, Bind.bind, EStateM.bind, schema_missing registered]
    exact tolerant.refl w
  | some found =>
    cases given : state w with
    | error fault w' =>
      rw [given] at read
      simp only [resumeState, Bind.bind, EStateM.bind, schema_registered registered, given]
      exact read
    | ok s w' =>
      rw [given] at read
      simp only [registered, given] at each
      simp only [resumeState, Bind.bind, EStateM.bind, schema_registered registered, given]
      exact tolerant.trans read (resumeAt_follows tolerant heeds rfl each)

end Executor

/-- A value is a state with a list for its position, or no state that was made before. -/
def State.Ready (v : Value) (h : Heap) : Prop :=
  ∀ a fields, v = .ref a → h.object a = .record .flowState fields →
    ∃ items, ((Script.Fields.get? fields "indexes").getD .nothing).listItems? h = some items

theorem State.ofValue_cases (v : Value) (w : World) :
    (∃ a fields, v = .ref a ∧ w.heap.object a = .record .flowState fields) ∨ State.ofValue v w = State.ofData v w := by
  cases v with
  | ref a =>
    cases found : w.heap.object a with
    | record kind fields =>
      cases kind with
      | flowState => exact .inl ⟨a, fields, rfl, found⟩
      | _ => exact .inr (by simp only [State.ofValue, Bind.bind, EStateM.bind, Script.get_result, found])
    | _ => exact .inr (by simp only [State.ofValue, Bind.bind, EStateM.bind, Script.get_result, found])
  | _ => exact .inr rfl

theorem State.ofValue_along {S : World → World → Prop} (tolerant : Tolerant Heap.Extends S) {v : Value} {w : World}
    (ready : State.Ready v w.heap) : S w (leftBy (State.ofValue v w)) := by
  have grows (h h' : Heap) (grows : h.Grows h') : h.Extends h' := grows.objects
  obtain ⟨a, fields, rfl, found⟩ | same := State.ofValue_cases v w
  · obtain ⟨items, listed⟩ := ready a fields rfl found
    have read : Job.act (rowOf ((Script.Fields.get? fields "indexes").getD .nothing)) w = .ok items w := by
      simp only [Job.act, State.rowOf_list listed]
    simp only [State.ofValue, Bind.bind, EStateM.bind, Script.get_result, found, read]
    exact tolerant.bind (tolerant.cursorsOf grows _) (fun _ => tolerant.pure _) w
  · rw [same]
    exact tolerant.ofData grows _ w

/-- Calls on one executor, one after the other, with all that they do. What they come to does not matter. Between
them new values may be made, and objects may be changed other than some that are kept. -/
inductive Calls (audience : Audience) (kept : Addr → Prop) (w : World) : List (Deed World) → World → Prop where
  | none : Calls audience kept w [] w
  | meanwhile {ds w₁ h} (before : Calls audience kept w ds w₁) (spares : Spares kept w₁ { w₁ with heap := h }) :
      Calls audience kept w ds { w₁ with heap := h }
  | start {ds w₁ call id input fuel} (before : Calls audience kept w ds w₁) (named : call.schema = .str id) :
      Calls audience kept w (ds ++ Executor.startDeeds audience call id input fuel w₁)
        (leftBy (Executor.start audience call input fuel w₁))
  | resume {ds w₁ id v input listener} (before : Calls audience kept w ds w₁) (ready : State.Ready v w₁.heap) :
      Calls audience kept w (ds ++ Executor.resumeDeeds audience id (State.ofValue v) input listener loopFuel w₁)
        (leftBy (Executor.resume audience (.str id) v input listener w₁))
  | goOn {ds w₁} {e : Execution} {id input fuel} (before : Calls audience kept w ds w₁) (named : e.call.schema = .str id) :
      Calls audience kept w
        (ds ++ Executor.resumeDeeds audience id (pure ⟨e.call.context, e.view.cursors⟩) input e.call.listener fuel w₁)
        (leftBy (Executor.goOn audience e input fuel w₁))

namespace Calls
variable {audience : Audience} {kept : Addr → Prop} {w w' : World} {ds : List (Deed World)}

theorem same_registry (calls : Calls audience kept w ds w') (heeds : audience.Heeds SameRegistry) :
    w'.registry = w.registry := by
  have tolerant := SameRegistry.tolerant
  have free (_ _ : Heap) : True := trivial
  induction calls with
  | none => rfl
  | meanwhile before spares ih => exact ih
  | @start ds w₁ call id input fuel before named ih =>
    exact tolerant.trans ih (tolerant.start free heeds call input fuel w₁)
  | @resume ds w₁ id v input listener before ready ih =>
    exact tolerant.trans ih (tolerant.resumeState free heeds _ (tolerant.ofValue free v) _ _ _ w₁)
  | @goOn ds w₁ e id input fuel before named ih =>
    rw [Executor.goOn_eq_resumeState]
    exact tolerant.trans ih (tolerant.resumeState free heeds _ (tolerant.pure _) _ _ _ w₁)

theorem spares (calls : Calls audience kept w ds w') (heeds : audience.Heeds (Spares kept))
    (each : ∀ d ∈ ds, Spares kept d.before d.after) : Spares kept w w' := by
  have tolerant := Spares.tolerant kept
  induction calls with
  | none => exact tolerant.refl _
  | meanwhile before spares ih => exact tolerant.trans (ih each) spares
  | start before named ih =>
    have done := ih (fun d member => each d (List.mem_append_left _ member))
    exact tolerant.trans done (Executor.start_follows tolerant heeds named
      (fun d member => each d (List.mem_append_right _ member)))
  | resume before ready ih =>
    have done := ih (fun d member => each d (List.mem_append_left _ member))
    exact tolerant.trans done (Executor.resumeState_follows tolerant heeds (State.ofValue_along tolerant ready)
      (fun d member => each d (List.mem_append_right _ member)))
  | goOn before named ih =>
    have done := ih (fun d member => each d (List.mem_append_left _ member))
    rw [Executor.goOn_eq_resumeState, named]
    exact tolerant.trans done (Executor.resumeState_follows tolerant heeds (tolerant.refl _)
      (fun d member => each d (List.mem_append_right _ member)))

end Calls

/-- Objects that are the same hold the same addresses, so a value that reaches no others reaches the same. -/
theorem Spares.reaches_iff {w w' : World} {v : Value} (kept : Spares (w.heap.Reaches v) w w')
    (there : ∀ a, w.heap.Reaches v a → a < w.heap.objects.size) (a : Addr) :
    (w'.heap.Reaches v a ↔ w.heap.Reaches v a) ∧ (w.heap.Reaches v a → w'.heap.object a = w.heap.object a) := by
  have same (a : Addr) (reaches : w.heap.Reaches v a) : w'.heap.object a = w.heap.object a := by
    have found := Array.getElem?_eq_getElem (there a reaches)
    rw [Heap.object_of_getElem? found, Heap.object_of_getElem? (kept a _ reaches found)]
  refine ⟨⟨fun reaches => ?_, fun reaches => ?_⟩, same a⟩
  · induction reaches with
    | here named => exact .here named
    | deeper before named ih =>
      rw [same _ ih] at named
      exact .deeper ih named
  · induction reaches with
    | here named => exact .here named
    | deeper before named ih =>
      rw [← same _ before] at named
      exact .deeper ih named

namespace Executor

/-- Whatever calls are made on an executor, its registry is the same afterwards, and every value in it is made of
the same objects, unless a condition or a step that a call evaluates changes one of them. -/
theorem registered_changed_by_deeds {audience : Audience} {w w' : World} {ds : List (Deed World)}
    (calls : Calls audience w.Holds w ds w') (registers : audience.Heeds SameRegistry)
    (spares : audience.Heeds (Spares w.Holds)) :
    w'.registry = w.registry ∧
      ((∀ d ∈ ds, Spares w.Holds d.before d.after) → ∀ v ∈ w'.registry.values,
        (∀ a, w.heap.Reaches v a → a < w.heap.objects.size) → ∀ a, (w'.heap.Reaches v a ↔ w.heap.Reaches v a) ∧
          (w.heap.Reaches v a → w'.heap.object a = w.heap.object a)) := by
  have same := calls.same_registry registers
  refine ⟨same, fun each v member there a => ?_⟩
  rw [same] at member
  have kept : Spares (w.heap.Reaches v) w w' :=
    fun a o reaches found => calls.spares spares each a o ⟨v, member, reaches⟩ found
  exact kept.reaches_iff there a

end Executor

def Schema.counting : Schema := [.step "count" (.ref 0) none]

/-- A world with an empty list as the literal input of a step, and with two empty contexts. -/
def World.counting (source : String) : World :=
  { heap := { objects := #[.list #[], .dict #[], .dict #[]] }
    registry := { steps := [{ id := "count", handler := .source source }]
                  schemas := [{ id := .str "counting", items := Schema.counting, space := .nothing }] } }

def Call.counting (context : Addr) : Call := { schema := .str "counting", context := .ref context }

def isEmptyList (w : World) (a : Addr) : Bool :=
  match w.heap.objects[a]? with
  | some (.list items) => items.isEmpty
  | _ => false

theorem eq_list_of_isEmptyList {w : World} {a : Addr} (empty : isEmptyList w a = true) :
    w.heap.objects[a]? = some (.list #[]) := by
  unfold isEmptyList at empty
  split at empty
  · next found =>
    rw [found, Array.isEmpty_iff.mp empty]
  · cases empty

/-- The number that a context has under a name. -/
def countIn? (w : World) (a : Addr) : Option Int :=
  match w.heap.objects[a]? with
  | some (.dict entries) => (Script.Entries.named? entries "n").bind Value.int?
  | _ => none

/-- A step that appends to its input appends to the literal input that is registered. So two starts with equal
contexts come to different ones. -/
theorem Executor.literal_grows :
    let w := World.counting "input.append(1); ctx['n'] = len(input)"
    ∃ e w₁ e' w₂, start .silent (.counting 1) .nothing 1 w = .ok e w₁ ∧ e.view.finished ∧
      start .silent (.counting 2) .nothing 1 w₁ = .ok e' w₂ ∧ e'.view.finished ∧
      isEmptyList w 0 ∧ isEmptyList w₁ 0 = false ∧ countIn? w₂ 1 = some 1 ∧ countIn? w₂ 2 = some 2 := by
  have plays : Engine.passes (fun e w₁ => e.view.finished && !isEmptyList w₁ 0 &&
      Engine.passes (fun e' w₂ => e'.view.finished && countIn? w₂ 1 == some 1 && countIn? w₂ 2 == some 2)
        (start .silent (.counting 2) .nothing 1 w₁))
    (start .silent (.counting 1) .nothing 1 (.counting "input.append(1); ctx['n'] = len(input)")) = true := by
    decide +kernel
  obtain ⟨e, w₁, first, plays⟩ := Engine.exists_of_passes plays
  simp only [Bool.and_eq_true, Bool.not_eq_true'] at plays
  obtain ⟨⟨finished, grown⟩, plays⟩ := plays
  obtain ⟨e', w₂, second, plays⟩ := Engine.exists_of_passes plays
  simp only [Bool.and_eq_true, beq_iff_eq] at plays
  obtain ⟨⟨finished', one⟩, two⟩ := plays
  exact ⟨e, w₁, e', w₂, first, finished, second, finished', rfl, grown, one, two⟩

theorem World.counting_holds {source : String} {a : Addr} (holds : (World.counting source).Holds a) : a = 0 := by
  obtain ⟨v, member, reaches⟩ := holds
  have literal (b : Addr) (named : b ∈ v.addresses) : b = 0 := by
    have values : (World.counting source).registry.values =
      [.str source, .nothing, .str "counting", .nothing, .ref 0] := rfl
    rw [values] at member
    simp only [List.mem_cons, List.not_mem_nil, or_false] at member
    obtain rfl | rfl | rfl | rfl | rfl := member
    case inr.inr.inr.inr => exact List.mem_singleton.mp named
    all_goals cases named
  induction reaches with
  | here named => exact literal _ named
  | deeper before named ih =>
    subst ih
    exact absurd named List.not_mem_nil

/-- A step that only counts its literal input leaves it alone. -/
theorem Executor.counting_registered_changed_by_deeds :
    let w := World.counting "ctx['n'] = len(input)"
    ∃ ds w', Calls .silent w.Holds w ds w' ∧ ds.length = 1 ∧ countIn? w' 1 = some 0 ∧ w'.registry = w.registry ∧
      w'.heap.object 0 = w.heap.object 0 := by
  intro w
  have calls : Calls .silent w.Holds w ([] ++ startDeeds .silent (.counting 1) "counting" .nothing 1 w)
    (leftBy (start .silent (.counting 1) .nothing 1 w)) := .start .none rfl
  have empty : ([] ++ startDeeds .silent (.counting 1) "counting" .nothing 1 w).all
    (fun d => isEmptyList d.before 0 && isEmptyList d.after 0) = true := by decide +kernel
  have silent {S : World → World → Prop} (refl : ∀ w, S w w) : Audience.Heeds S .silent := fun _ _ w => refl w
  obtain ⟨same, kept⟩ := registered_changed_by_deeds calls (silent (fun _ => rfl)) (silent (Spares.tolerant _).refl)
  have literal : Value.ref 0 ∈ w.registry.values := by
    have values : w.registry.values = [.str "ctx['n'] = len(input)", .nothing, .str "counting", .nothing, .ref 0] := rfl
    simp [values]
  have each : ∀ d ∈ [] ++ startDeeds .silent (.counting 1) "counting" .nothing 1 w, Spares w.Holds d.before d.after := by
    intro d member a o holds found
    rw [World.counting_holds holds] at found ⊢
    obtain ⟨before, after⟩ := Bool.and_eq_true_iff.mp (List.all_eq_true.mp empty d member)
    rw [eq_list_of_isEmptyList after, ← found, eq_list_of_isEmptyList before]
  rw [same] at kept
  have kept := kept each (.ref 0) literal
  refine ⟨_, _, calls, by decide +kernel, by decide +kernel, same, (kept ?_ 0).2 (.here (List.mem_singleton.mpr rfl))⟩
  intro a reaches
  rw [World.counting_holds ⟨_, literal, reaches⟩]
  decide

end Workflow
