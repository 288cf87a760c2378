import Workflow.Executor
import Workflow.Proofs.Heaps

/-! Snapshots of results. A snapshot holds the state of its result, and only the texts of errors keep it from
being taken. -/

namespace Workflow
open Script (Act Addr Entries Heap Value)
open Script.Act (Writes)

theorem errorData_writes {texts : Value → Heap → Prop} {v : Value} {h : Heap} (text : texts v h) :
    Writes texts (errorData v) h (fun _ _ => True) := by
  refine .bind .get ?_
  rintro _ _ - ⟨rfl, rfl⟩
  refine .bind (.plain text) (fun message h' _ _ => ?_)
  exact (Writes.newDict _).mono (fun _ _ text => text) (fun _ _ _ _ => trivial)

theorem errorItems_writes {texts : Value → Heap → Prop} (items : List Value) (h : Heap)
    (text : ∀ v ∈ items, ∀ h, Script.isError h v → texts v h) :
    Writes texts (errorItems items) h (fun _ _ => True) := by
  induction items generalizing h with
  | nil => exact .pure trivial
  | cons v rest ih =>
    refine .bind .get ?_
    rintro _ _ - ⟨rfl, rfl⟩
    have behind (shown : Value) (h' : Heap) :
        Writes texts (do return shown :: (← errorItems rest)) h' (fun _ _ => True) :=
      .bind (ih h' (fun w member => text w (by simp [member]))) (fun _ _ _ _ => .pure trivial)
    dsimp only
    split
    · next error => exact .bind (errorData_writes (text v (by simp) h error)) (fun shown h' _ _ => behind shown h')
    · have plain : Writes texts (pure v) h (fun _ _ => True) := .pure trivial
      exact .bind plain (fun shown h' _ _ => behind shown h')

namespace Result
variable {r : Result} {h : Heap}

/-- What a snapshot writes: the error, and each error among the errors. -/
def Texts (r : Result) (errors : List Value) (v : Value) (h : Heap) : Prop :=
  v = r.error ∨ v ∈ errors ∧ Script.isError h v

/-- The errors of a result are missing or a list. -/
def Lists (r : Result) (h : Heap) (errors : List Value) : Prop :=
  r.errors = .nothing ∧ errors = [] ∨ ∃ a, r.errors = .ref a ∧ h.objects[a]? = some (.list errors.toArray)

def hasList (r : Result) (h : Heap) : Bool :=
  match r.errors with
  | .nothing => true
  | .ref a =>
    match h.objects[a]? with
    | some (.list _) => true
    | _ => false
  | _ => false

theorem lists_of_hasList (has : r.hasList h = true) : ∃ errors, r.Lists h errors := by
  unfold hasList at has
  split at has
  · next missing => exact ⟨[], .inl ⟨missing, rfl⟩⟩
  · next a same =>
    split at has
    · next items found => exact ⟨items.toList, .inr ⟨a, same, found⟩⟩
    · cases has
  · cases has

/-- A value is a snapshot whose state is a context with a list of some items. -/
def Holds (context : Value) (items : Array Value) (v : Value) (h : Heap) : Prop :=
  ∃ d s l entries, v = .ref d ∧ h.objects[d]? = some (.dict entries) ∧
    Entries.named? entries "state" = some (.ref s) ∧
    h.objects[s]? = some (.dict #[(.str "context", context), (.str "indexes", .ref l)]) ∧
    h.objects[l]? = some (.list items)

theorem rowOf_writes {texts : Value → Heap → Prop} {a : Addr} {items : Array Value}
    (listed : h.objects[a]? = some (.list items)) :
    Writes texts (rowOf (.ref a)) h (fun found h' => items = found ∧ h = h') := by
  refine .inl ⟨items, h, ?_, .refl h, rfl, rfl⟩
  simp only [rowOf, Bind.bind, EStateM.bind, Act.object, Heap.object_of_getElem? listed]
  rfl

theorem errorOf_writes {texts : Value → Heap → Prop} {error : Value} (text : texts error h) :
    Writes texts (errorOf error) h (fun _ _ => True) := by
  cases error with
  | nothing => exact .pure trivial
  | _ => exact errorData_writes text

theorem Lists.extends {errors : List Value} {h' : Heap} (lists : r.Lists h errors) (grows : h.Extends h') :
    r.Lists h' errors :=
  lists.imp_right (fun ⟨a, same, found⟩ => ⟨a, same, grows a _ found⟩)

theorem errorsOf_writes {errors : List Value} (lists : r.Lists h errors) :
    Writes (r.Texts errors) (errorsOf r.errors) h (fun _ _ => True) := by
  obtain ⟨same, -⟩ | ⟨a, same, found⟩ := lists
  · rw [same]
    exact .pure trivial
  · rw [same]
    refine .bind (rowOf_writes found) ?_
    rintro _ _ - ⟨rfl, rfl⟩
    have shown : Writes (r.Texts errors) (errorItems errors) h (fun _ _ => True) :=
      errorItems_writes errors h (fun v member h error => .inr ⟨member, error⟩)
    refine .bind shown (fun shown h' _ _ => ?_)
    exact (Writes.newList _).mono (fun _ _ text => text) (fun _ _ _ _ => trivial)

theorem named_state (r : Result) (state error errors : Value) :
    Entries.named? (r.entries state error errors) "state" = some state := by
  have other : Value.sameKey (.str "schema_id") (.str "state") = false := by decide
  have same : Value.sameKey (.str "state") (.str "state") = true := by decide
  simp [Entries.named?, Entries.get?, entries, other, same]

theorem snapshot_writes {a : Addr} {items : Array Value} {errors : List Value} (indexes : r.indexes = .ref a)
    (listed : h.objects[a]? = some (.list items)) (lists : r.Lists h errors) :
    Writes (r.Texts errors) r.snapshot h (Holds r.context items) := by
  have copied : Writes (r.Texts errors) (listOf r.indexes) h
      (fun v h' => ∃ l, v = .ref l ∧ h'.objects[l]? = some (.list items)) := by
    rw [indexes]
    refine .bind (rowOf_writes listed) ?_
    rintro _ _ - ⟨rfl, rfl⟩
    exact .newList _
  refine .bind copied ?_
  rintro _ h₁ first ⟨l, rfl, list⟩
  refine .bind (.newDict _) ?_
  rintro _ h₂ second ⟨s, rfl, state⟩
  -- From here on nothing but new objects is written, and so the state stays as it is.
  refine .bind (errorOf_writes (.inl rfl)) (fun error h₃ third _ => ?_)
  refine .bind (errorsOf_writes (((lists.extends first).extends second).extends third)) (fun shown h₄ fourth _ => ?_)
  refine (Writes.newDict _).mono (fun _ _ text => text) ?_
  rintro _ h₅ fifth ⟨d, rfl, saved⟩
  refine ⟨d, s, l, _, rfl, saved, ?_, ?_, ?_⟩
  · exact r.named_state _ _ _
  · exact fifth s _ (fourth s _ (third s _ state))
  · exact fifth l _ (fourth l _ (third l _ (second l _ list)))

end Result

namespace State

theorem cursors_read (cursors : List Int) : (cursors.map Value.int).filterMap Value.int? = cursors := by
  rw [List.filterMap_map]
  exact List.filterMap_some

/-- Plain data that stands for a context and a position of some whole numbers. -/
def InData (context : Value) (cursors : List Int) (v : Value) (h : Heap) : Prop :=
  ∃ entries, v.entries? h = some entries ∧ (Entries.named? entries "context").getD .nothing = context ∧
    match Entries.named? entries "indexes" with
    | none => cursors = []
    | some indexes => indexes.listItems? h = some (cursors.map Value.int).toArray

theorem indexed_iff (cursors : List Int) :
    (cursors.map Value.int).toArray.all isIndex = true ↔ ∀ n ∈ cursors, 0 ≤ n := by
  simp [isIndex]

theorem ofData_inData {context v : Value} {cursors : List Int} {w : World} (given : InData context cursors v w.heap)
    (positive : ∀ n ∈ cursors, 0 ≤ n) : ofData v w = .ok ⟨context, cursors⟩ w := by
  obtain ⟨entries, mapping, rfl, placed⟩ := given
  simp only [ofData, Bind.bind, EStateM.bind, Script.get_result, mapping]
  cases named : Entries.named? entries "indexes" with
  | none =>
    rw [named] at placed
    subst placed
    rfl
  | some indexes =>
    rw [named] at placed
    simp only [placed, Option.filter_some, if_pos ((indexed_iff cursors).mpr positive), cursors_read]
    rfl

/-- No mapping was checked before. -/
theorem ofValue_mapping {v : Value} {entries : Entries} {w : World} (mapping : v.entries? w.heap = some entries) :
    ofValue v w = ofData v w := by
  unfold Value.entries? at mapping
  split at mapping
  · next a =>
    split at mapping
    · next found => simp only [ofValue, Bind.bind, EStateM.bind, Script.get_result, found]
    · cases mapping
  · cases mapping

theorem ofData_held {context : Value} {cursors : List Int} (positive : ∀ n ∈ cursors, 0 ≤ n) {s l : Addr} {w : World}
    (state : w.heap.objects[s]? = some (.dict #[(.str "context", context), (.str "indexes", .ref l)]))
    (list : w.heap.objects[l]? = some (.list (cursors.map Value.int).toArray)) :
    ofData (.ref s) w = .ok ⟨context, cursors⟩ w := by
  have other : Value.sameKey (.str "context") (.str "indexes") = false := by decide
  have first : Value.sameKey (.str "context") (.str "context") = true := by decide
  have second : Value.sameKey (.str "indexes") (.str "indexes") = true := by decide
  refine ofData_inData ⟨#[(.str "context", context), (.str "indexes", .ref l)], ?_, ?_, ?_⟩ positive
  · simp only [Value.entries?, Heap.object_of_getElem? state]
  · simp [Entries.named?, Entries.get?, first]
  · simp [Entries.named?, Entries.get?, other, second, Value.listItems?, Heap.object_of_getElem? list]

/-- A value is a snapshot from which a state can be read. -/
def SavedIn (s : State) (v : Value) (h : Heap) : Prop :=
  ∃ entries data, v.entries? h = some entries ∧ Entries.named? entries "state" = some data ∧
    ∀ w : World, w.heap = h → ofData data w = .ok s w ∧ ofValue data w = .ok s w

theorem savedIn_of_holds {context v : Value} {h : Heap} {cursors : List Int} (positive : ∀ n ∈ cursors, 0 ≤ n)
    (holds : Result.Holds context (cursors.map Value.int).toArray v h) : SavedIn ⟨context, cursors⟩ v h := by
  obtain ⟨d, s, l, entries, rfl, saved, named, state, list⟩ := holds
  refine ⟨entries, .ref s, ?_, named, ?_⟩
  · simp only [Value.entries?, Heap.object_of_getElem? saved]
  · rintro w rfl
    have read := ofData_held positive state list
    refine ⟨read, ?_⟩
    rw [← read]
    simp only [ofValue, Bind.bind, EStateM.bind, Script.get_result, Heap.object_of_getElem? state]

end State

namespace Execution
variable {e : Execution} {halt : Engine.Halt} {cursors : List Int}

theorem result_eq (halted : e.halted? = some (halt, cursors)) (h : Heap) :
    e.result h = .ok
      { schema := e.call.schema, context := e.call.context, indexes := .ref h.objects.size
        stepId := .str e.report.stepId, inputRequired := halt.descriptor, interrupt := .bool true
        error := halt.error, errors := halt.errors, expires := halt.expires }
      (h.alloc (.list (cursors.map Value.int).toArray)).2 := by
  obtain ⟨call, stepId, ending⟩ := e
  cases ending <;> cases halted
  rfl

end Execution

end Workflow
