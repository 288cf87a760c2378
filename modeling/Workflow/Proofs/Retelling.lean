import Workflow.Proofs.Continuations
import Workflow.Proofs.Outcomes
import Workflow.Proofs.Remaking

/-! Snapshots that are taken again. Two calls that correspond are told in the same words, unless the text of an error names
an address. -/

namespace Workflow
open Script (Act Addr Entries Heap Object Renaming Value)

/-- The text of a value names no address: it is the same wherever the objects of the value lie. -/
def Script.Heap.Tells (h : Heap) (v : Value) : Prop :=
  ∀ f h', h.Renamed f h' → f.Covers v → (v.rename f.map).plain h' = v.plain h

/-- A heap has grown since a call came to something, and another one holds what was there at other addresses. -/
structure Script.Heap.Since (start : Heap) (first : Renaming) (f : Renaming) (h h' : Heap) : Prop where
  renamed : h.Renamed f h'
  within : first.Within f
  grown : start.Extends h

/-- A renaming that leaves everything where it is. -/
def Script.Renaming.still (f : Renaming) : Renaming where
  map := id
  domain := f.domain
  injective _ _ _ _ same := same

theorem Script.Object.rename_id (o : Object) : o.rename id = o := by
  have values : Value.rename id = id := funext Value.rename_id
  have entries : Script.Entry.rename id = id := by
    funext entry
    rw [Script.Entry.rename, Value.rename_id, Value.rename_id, id]
  have fields : Script.Field.rename id = id := by
    funext field
    rw [Script.Field.rename, Value.rename_id, id]
  cases o with
  | function k => simp [Object.rename, Script.Function.rename, values]
  | frame k => simp [Object.rename, Script.Frame.rename, fields]
  | iterator it => cases it <;> simp [Object.rename, Script.Iterator.rename, values]
  | _ => simp [Object.rename, values, entries, fields]

variable {start there h h' : Heap} {first f : Renaming}

namespace Script.Heap.Since
variable (since : Heap.Since start first f h h') (begun : start.Renamed first there)
include since begun

/-- What was there at the start is where it was. -/
theorem here : start.Renamed first.still h where
  object a inside :=
    have ⟨o, found, covers, _⟩ := begun.object a inside
    ⟨o, found, covers, (congrArg some o.rename_id).symm ▸ since.grown a o found⟩
  idle := ⟨begun.idle.1, since.renamed.idle.1⟩

/-- What was there at the start is in the other heap. -/
theorem away : start.Renamed first h' where
  object a inside := by
    obtain ⟨o, found, covers, -⟩ := begun.object a inside
    obtain ⟨o', found', -, placed⟩ := since.renamed.object a (since.within a inside).1
    cases (since.grown a o found).symm.trans found'
    refine ⟨o, found, covers, ?_⟩
    rw [← (since.within a inside).2, ← since.within.renameObject covers]
    exact placed
  idle := ⟨begun.idle.1, since.renamed.idle.2⟩

theorem tells {v : Value} (tells : start.Tells v) (covers : first.Covers v) : (v.rename first.map).plain h' = v.plain h := by
  rw [tells first h' (since.away begun) covers]
  have same := tells first.still h (since.here begun) covers
  rw [Script.Renaming.still, Value.rename_id] at same
  exact same.symm

end Script.Heap.Since

theorem Script.Heap.Renamed.isError (renamed : h.Renamed f h') {v : Value} (covers : f.Covers v) :
    Script.isError h' (v.rename f.map) = Script.isError h v := by
  cases v with
  | ref a =>
    obtain ⟨-, same⟩ := renamed.found (Renaming.covers_ref.mp covers)
    rw [Value.rename, Script.isError, Script.isError, same]
    cases h.object a <;> rfl
  | _ => rfl

/-- What is made of values in one heap is made again in the other one. -/
abbrev Script.Act.Retold (start : Heap) (first f : Renaming) (like : Renaming → α → β → Prop) (x : Act α) (y : Act β) : Prop :=
  Workflow.Follows (Heap.Since start first) f like x y

namespace Script.Act.Retold

theorem allocate {o : Object} (covers : f.CoversObject o) :
    Retold start first f Renaming.Sends (Act.allocate o) (Act.allocate (o.rename f.map)) := by
  intro h h' v k since ran
  obtain ⟨g, within, domain, new, renamed⟩ := since.renamed.alloc covers
  cases ran
  refine ⟨g, _, _, within, rfl, ?_, renamed, since.within.trans within, since.grown.trans (.alloc h o)⟩
  exact ⟨Renaming.covers_ref.mpr ((domain _).mpr (.inr rfl)), by rw [Value.rename, new]⟩

theorem newList {items : List Value} (covers : f.CoversAll items) :
    Retold start first f Renaming.Sends (Act.newList items.toArray) (Act.newList (items.map (Value.rename f.map)).toArray) := by
  have made : Retold start first f Renaming.Sends (Act.allocate (.list items.toArray)) _ :=
    allocate (Renaming.coversAll_iff.mpr (by simpa using covers))
  rw [Object.rename, List.map_toArray] at made
  exact made

theorem newDict {entries : List (Value × Value)} (covers : ∀ entry ∈ entries, f.Covers entry.1 ∧ f.Covers entry.2) :
    Retold start first f Renaming.Sends (Act.newDict entries.toArray)
      (Act.newDict (entries.map (Script.Entry.rename f.map)).toArray) := by
  have made : Retold start first f Renaming.Sends (Act.allocate (.dict entries.toArray)) _ :=
    allocate (Entries.coveredBy_iff.mpr (fun entry member => covers entry (by simpa using member)))
  rw [Object.rename, List.map_toArray] at made
  exact made

variable (begun : start.Renamed first there)
include begun

theorem plain {v : Value} (covers : first.Covers v) (tells : start.Tells v) :
    Retold start first f (fun _ s t => t = s) (Act.plain v) (Act.plain (v.rename first.map)) := by
  intro h h' s k since ran
  have same := since.tells begun tells covers
  simp only [Act.plain, Act.rendered, Bind.bind, EStateM.bind, Script.get_result, same] at ran ⊢
  cases told : v.plain h with
  | ok text =>
    simp only [told] at ran ⊢
    cases ran
    exact ⟨f, s, h', .refl f, rfl, rfl, since⟩
  | error fault =>
    simp only [told] at ran
    cases fault <;> cases ran

theorem errorData {v : Value} (covers : first.Covers v) (tells : start.Tells v) :
    Retold start first f Renaming.Sends (errorData v) (errorData (v.rename first.map)) := by
  intro h h' d k since ran
  have category : (v.rename first.map).className h' = v.className h := by
    rw [(since.away begun).className covers, ← (since.here begun).className covers, Renaming.still, Value.rename_id]
  have made (g : Renaming) (message : String) : Retold start first g Renaming.Sends
      (Act.newDict #[(.str "type", .str (v.className h)), (.str "message", .str message)])
      (Act.newDict #[(.str "type", .str (v.className h)), (.str "message", .str message)]) := by
    let entries : List (Value × Value) := [(.str "type", .str (v.className h)), (.str "message", .str message)]
    refine newDict (fun entry (member : entry ∈ entries) => ?_)
    obtain ⟨name, text, rfl⟩ : ∃ name text, entry = (.str name, .str text) := by
      obtain rfl | member := List.mem_cons.mp member
      · exact ⟨_, _, rfl⟩
      · exact ⟨_, _, List.mem_singleton.mp member⟩
    exact ⟨Value.isBare.covers (v := .str name) rfl g, Value.isBare.covers (v := .str text) rfl g⟩
  have told : Retold start first f Renaming.Sends
      (do Act.newDict #[(.str "type", .str (v.className h)), (.str "message", .str (← Act.plain v))])
      (do Act.newDict #[(.str "type", .str (v.className h)), (.str "message", .str (← Act.plain (v.rename first.map)))]) :=
    (plain begun covers tells).bind (fun g message message' _ same => by
      subst same
      exact made g _)
  have again : Workflow.errorData (v.rename first.map) h' = (do
      Act.newDict #[(.str "type", .str (v.className h)), (.str "message", .str (← Act.plain (v.rename first.map)))] :
        Act Value) h' := by
    rw [← category]
    rfl
  rw [again]
  exact told h h' d k since ran

omit begun in
/-- A value in a row of errors is told as an error if it is one. -/
def itemOf (v : Value) : Act Value := do if Script.isError (← get) v then Workflow.errorData v else pure v

omit begun in
theorem errorItems_cons (v : Value) (rest : List Value) :
    Workflow.errorItems (v :: rest) = itemOf v >>= fun shown => Workflow.errorItems rest >>= fun others =>
      pure (shown :: others) := by
  funext h
  simp only [Workflow.errorItems, itemOf, Bind.bind, EStateM.bind, Script.get_result]
  split <;> rfl

theorem item {v : Value} (covers : first.Covers v) (tells : Script.isError start v = true → start.Tells v)
    (within : first.Within f) :
    Retold start first f Renaming.Sends (itemOf v) (itemOf (v.rename first.map)) := by
  intro h h' w k since ran
  have same := (since.away begun).isError covers
  have same' := (since.here begun).isError covers
  rw [Renaming.still, Value.rename_id] at same'
  have looked (u : Value) (k : Heap) :
      itemOf u k = (if Script.isError k u then Workflow.errorData u else pure u : Act Value) k := rfl
  rw [looked, same'] at ran
  rw [looked, same]
  split at ran
  · next raised =>
    rw [if_pos raised]
    exact errorData begun covers (tells raised) h h' w k since ran
  · next other =>
    rw [if_neg other]
    cases ran
    exact ⟨f, _, h', .refl f, rfl, ⟨covers.mono within, by rw [within.rename covers]⟩, since⟩

/-- Errors in a row are told again, and the other values are taken as they are. -/
theorem errorItems {items : List Value} (covers : first.CoversAll items)
    (tells : ∀ v ∈ items, Script.isError start v = true → start.Tells v) (within : first.Within f) :
    Retold start first f (fun g vs ws => g.CoversAll vs ∧ ws = vs.map (Value.rename g.map)) (errorItems items)
      (errorItems (items.map (Value.rename first.map))) := by
  induction items generalizing f with
  | nil => exact .pure ⟨fun v member => absurd member List.not_mem_nil, rfl⟩
  | cons v rest ih =>
    obtain ⟨here, later⟩ := List.forall_mem_cons.mp covers
    have others (g : Renaming) (within : first.Within g) :=
      ih (f := g) later (fun w member => tells w (List.mem_cons_of_mem _ member)) within
    have told := item (f := f) begun here (tells v List.mem_cons_self) within
    rw [List.map_cons, errorItems_cons, errorItems_cons]
    refine told.bind (fun g w w' more sends => (others g (within.trans more)).bind (fun l ws ws' further all => .pure ?_))
    obtain ⟨covers, rfl⟩ := sends
    obtain ⟨covered, rfl⟩ := all
    exact ⟨List.forall_mem_cons.mpr ⟨covers.mono further, covered⟩, by rw [List.map_cons, further.rename covers]⟩

/-- The error of a call is told again. -/
theorem errorOf {v : Value} (covers : first.Covers v) (tells : start.Tells v) :
    Retold start first f Renaming.Sends (Workflow.errorOf v) (Workflow.errorOf (v.rename first.map)) := by
  have present {u : Value} (there : u ≠ .nothing) : Workflow.errorOf u = Workflow.errorData u := by
    unfold Workflow.errorOf
    split
    · exact absurd rfl there
    · rfl
  by_cases missing : v = .nothing
  · subst missing
    exact .pure (nothing_sent f)
  · have missing' : v.rename first.map ≠ .nothing := fun same => missing (by cases v <;> cases same; rfl)
    rw [present missing, present missing']
    exact errorData begun covers tells

/-- The errors of a call are told again, if there is a list of them. -/
theorem errorsOf {v : Value} (covers : first.Covers v) (within : first.Within f)
    (listed : v = .nothing ∨ ∃ items, v.listItems? start = some items ∧
      ∀ w ∈ items.toList, Script.isError start w = true → start.Tells w) :
    Retold start first f Renaming.Sends (Workflow.errorsOf v) (Workflow.errorsOf (v.rename first.map)) := by
  obtain rfl | ⟨items, made, tells⟩ := listed
  · exact .pure (nothing_sent f)
  · intro h h' w k since ran
    have all : first.CoversAll items.toList := (begun.listItems? covers).2 items made
    have opened {u : Value} {row : Array Value} {k : Heap} (there : u.listItems? k = some row) :
        Workflow.errorsOf u k = (Workflow.errorItems row.toList >>= fun told => Act.newList told.toArray) k := by
      have taken := State.rowOf_list there
      cases u with
      | ref a => exact Engine.Work.ok_bind taken
      | _ => cases there
    have here : v.listItems? h = some items := by
      have same := ((since.here begun).listItems? covers).1
      rw [Renaming.still, Value.rename_id, made] at same
      rw [same, Option.map_some, funext Value.rename_id]
      exact congrArg some (Array.map_id items)
    have away := ((since.away begun).listItems? covers).1
    rw [made, Option.map_some] at away
    rw [opened here] at ran
    rw [opened away, Array.toList_map]
    have told : Retold start first f Renaming.Sends
        (Workflow.errorItems items.toList >>= fun told => Act.newList told.toArray)
        (Workflow.errorItems (items.toList.map (Value.rename first.map)) >>= fun told => Act.newList told.toArray) :=
      (errorItems begun all tells within).bind
      (fun g vs ws _ same => by
        obtain ⟨covered, rfl⟩ := same
        exact newList covered)
    exact told h h' w k since ran

end Script.Act.Retold

/-! Snapshots. -/

namespace Execution

/-- The halt of a call, or an empty one. -/
def halt (e : Execution) : Engine.Halt := e.view.halt.getD {}

/-- The result of a call, apart from its position. -/
def facts (e : Execution) : Result where
  schema := e.call.schema
  context := e.call.context
  indexes := .nothing
  finished := .bool e.view.finished
  stepId := .str e.view.stepId
  inputRequired := e.halt.descriptor
  expires := e.halt.expires

/-- The snapshot of what a call came to. -/
def snapshot (e : Execution) : Act Value := do
  let cursors := e.view.cursors.map Value.int
  let _ ← Act.newList cursors.toArray
  let indexes ← Act.newList cursors.toArray
  let state ← Act.newDict #[(.str "context", e.call.context), (.str "indexes", indexes)]
  let error ← errorOf e.halt.error
  let errors ← errorsOf e.halt.errors
  Act.newDict (e.facts.entries state error errors)

theorem snapshot_eq (e : Execution) (h : Heap) : e.snapshot h = (e.result >>= fun r => r.snapshot) h := by
  let cursors := (e.view.cursors.map Value.int).toArray
  let v : Value := .ref h.objects.size
  have there : v.listItems? (h.alloc (.list cursors)).2 = some cursors := by
    simp only [v, Value.listItems?, Heap.object_of_getElem? (h.alloc_found _)]
  have listed : listOf v (h.alloc (.list cursors)).2 = Act.newList cursors (h.alloc (.list cursors)).2 :=
    Engine.Work.ok_bind (State.rowOf_list there)
  let rest (indexes : Value) : Act Value := do
    let state ← Act.newDict #[(.str "context", e.call.context), (.str "indexes", indexes)]
    let error ← errorOf e.halt.error
    let errors ← errorsOf e.halt.errors
    Act.newDict (e.facts.entries state error errors)
  have left : e.snapshot h = (Act.newList cursors >>= rest) (h.alloc (.list cursors)).2 := rfl
  have right : (e.result >>= fun r => r.snapshot) h = (listOf v >>= rest) (h.alloc (.list cursors)).2 := rfl
  rw [left, right]
  simp only [Bind.bind, EStateM.bind, listed]

theorem saves_iff {e : Execution} {j : Json} : e.Saves h j h' ↔ ∃ v, e.snapshot h = .ok v h' ∧ v.data h' = .ok j := by
  constructor
  · rintro ⟨r, h₁, v, made, taken, data⟩
    exact ⟨v, (e.snapshot_eq h).trans ((Engine.Work.ok_bind made).trans taken), data⟩
  · rintro ⟨v, taken, data⟩
    obtain ⟨r, h₁, made, taken⟩ := Engine.Work.bind_ok ((e.snapshot_eq h).symm.trans taken)
    exact ⟨r, h₁, v, made, taken, data⟩

end Execution

/-- What is seen of corresponding calls corresponds. -/
theorem Execution.Sent.view {e e' : Execution} (sent : Execution.Sent f e e') :
    e'.view.cursors = e.view.cursors ∧ e'.view.stepId = e.view.stepId ∧ e'.view.finished = e.view.finished ∧
      Engine.Halt.Sent f e.halt e'.halt := by
  obtain ⟨call, stepId, ending⟩ := e
  obtain ⟨call', stepId', ending'⟩ := e'
  obtain ⟨-, same, sent⟩ := sent
  have nothing : Engine.Halt.Sent f {} {} := ⟨nothing_sent f, nothing_sent f, nothing_sent f, nothing_sent f⟩
  cases sent with
  | passed => exact ⟨rfl, same, rfl, nothing⟩
  | signalled s => exact ⟨rfl, same, rfl, nothing⟩
  | halted halt cursors => exact ⟨rfl, same, rfl, halt⟩

/-- Entries correspond, in a row. -/
def Script.Row.Sent (f : Renaming) (row row' : List (Value × Value)) : Prop :=
  (∀ entry ∈ row, f.Covers entry.1 ∧ f.Covers entry.2) ∧ row' = row.map (Script.Entry.rename f.map)

namespace Script.Row.Sent

theorem nil : Row.Sent f [] [] := ⟨fun _ member => absurd member List.not_mem_nil, rfl⟩

theorem cons {v v' : Value} {row row' : List (Value × Value)} (name : String) (sends : f.Sends v v')
    (others : Row.Sent f row row') :
    Row.Sent f ((.str name, v) :: row) ((.str name, v') :: row') := by
  obtain ⟨covers, rfl⟩ := sends
  obtain ⟨covered, rfl⟩ := others
  exact ⟨List.forall_mem_cons.mpr ⟨⟨Value.isBare.covers (v := .str name) rfl f, covers⟩, covered⟩, rfl⟩

theorem append {row row' more more' : List (Value × Value)} (first : Row.Sent f row row') (second : Row.Sent f more more') :
    Row.Sent f (row ++ more) (row' ++ more') := by
  obtain ⟨covered, rfl⟩ := first
  obtain ⟨covered', rfl⟩ := second
  exact ⟨List.forall_mem_append.mpr ⟨covered, covered'⟩, List.map_append.symm⟩

theorem present {v v' : Value} (name : String) (sends : f.Sends v v') :
    Row.Sent f (presentEntry name v) (presentEntry name v') := by
  have same : isPresent v' = isPresent v := by
    rw [sends.2]
    cases v <;> rfl
  unfold presentEntry
  rw [same]
  split
  · exact cons name sends nil
  · exact nil

theorem newDict {row row' : List (Value × Value)} (sent : Row.Sent f row row') :
    Act.Retold start first f Renaming.Sends (Act.newDict row.toArray) (Act.newDict row'.toArray) := by
  obtain ⟨covered, rfl⟩ := sent
  exact Act.Retold.newDict covered

end Script.Row.Sent

/-- What a call says of its errors names no address. -/
structure Execution.Tellable (e : Execution) (h : Heap) : Prop where
  error : h.Tells e.halt.error
  errors : e.halt.errors = .nothing ∨ ∃ items, e.halt.errors.listItems? h = some items ∧
    ∀ v ∈ items.toList, Script.isError h v = true → h.Tells v

/-- Corresponding calls are told in the same words. -/
theorem Execution.Sent.saves {e e' : Execution} {k : Heap} {j : Json} (sent : Execution.Sent f e e') (renamed : h.Renamed f h')
    (tellable : e.Tellable h) (saves : e.Saves h j k) : ∃ k', e'.Saves h' j k' ∧ h.Renamed f k' := by
  obtain ⟨v, taken, data⟩ := saves_iff.mp saves
  obtain ⟨cursors, stepId, finished, halt⟩ := sent.view
  obtain ⟨id, named, named'⟩ := sent.call.named
  have bare {u : Value} (bare : u.isBare) (g : Renaming) : g.Sends u u := bare.sends g
  have again : Act.Retold h f f Renaming.Sends e.snapshot e'.snapshot := by
    have ints (g : Renaming) : Act.Retold h f g Renaming.Sends (Act.newList (e.view.cursors.map Value.int).toArray)
        (Act.newList (e'.view.cursors.map Value.int).toArray) := by
      have covers : g.CoversAll (e.view.cursors.map Value.int) := by
        intro u member
        obtain ⟨n, -, rfl⟩ := List.mem_map.mp member
        exact Value.isBare.covers (v := .int n) rfl g
      have made : Act.Retold h f g Renaming.Sends _ _ := Act.Retold.newList covers
      rw [List.map_map] at made
      rw [cursors]
      exact made
    refine (ints f).bind (fun g₁ _ _ in₁ _ => (ints g₁).bind (fun g₂ indexes indexes' in₂ positions => ?_))
    have in₂ := in₁.trans in₂
    have state : Act.Retold h f g₂ Renaming.Sends _ _ :=
      (Script.Row.Sent.cons "context" (sent.call.context.mono in₂) (.cons "indexes" positions .nil)).newDict
    refine state.bind (fun g₃ state₀ state₁ in₃ states => ?_)
    have in₃ := in₂.trans in₃
    have error : Act.Retold h f g₃ Renaming.Sends (errorOf e.halt.error) (errorOf e'.halt.error) := by
      rw [halt.error.2]
      exact Act.Retold.errorOf renamed halt.error.1 tellable.error
    refine error.bind (fun g₄ error error' more₄ errorSent => ?_)
    have in₄ := in₃.trans more₄
    have errors : Act.Retold h f g₄ Renaming.Sends (errorsOf e.halt.errors) (errorsOf e'.halt.errors) := by
      rw [halt.errors.2]
      exact Act.Retold.errorsOf renamed halt.errors.1 in₄ tellable.errors
    refine errors.bind (fun g₅ errors errors' more₅ errorsSent => ?_)
    have within := in₄.trans more₅
    have state := states.mono (more₄.trans more₅)
    have fixed : Script.Row.Sent g₅
        [(.str "schema_id", e.call.schema), (.str "state", state₀), (.str "finished", .bool e.view.finished),
          (.str "step_id", .str e.view.stepId)]
        [(.str "schema_id", e'.call.schema), (.str "state", state₁), (.str "finished", .bool e'.view.finished),
          (.str "step_id", .str e'.view.stepId)] := by
      rw [named, named', finished, stepId]
      exact .cons _ (Value.isBare.sends (v := .str id) rfl g₅) (.cons _ state (.cons _
        (Value.isBare.sends (v := .bool _) rfl g₅) (.cons _ (Value.isBare.sends (v := .str _) rfl g₅) .nil)))
    have optional := ((Script.Row.Sent.present "input_required" (halt.descriptor.mono within)).append
      (.present "error" (errorSent.mono more₅))).append (.present "errors" errorsSent) |>.append
      (.present "expires" (halt.expires.mono within))
    have told : Act.Retold h f g₅ Renaming.Sends _ _ := (fixed.append optional).newDict
    simp only [Result.entries, List.append_toArray]
    exact told
  obtain ⟨g, v', k', -, taken', ⟨covers, rfl⟩, since⟩ := again h h' v k ⟨renamed, .refl f, .refl h⟩ taken
  exact ⟨k', saves_iff.mpr ⟨_, taken', (since.renamed.data covers).trans data⟩, since.away renamed⟩

theorem Script.Act.plain_ok {v : Value} {s : String} {k : Heap} (told : Act.plain v h = .ok s k) : k = h ∧ v.plain h = .ok s := by
  simp only [Act.plain, Act.rendered, Bind.bind, EStateM.bind, Script.get_result] at told
  cases written : v.plain h with
  | ok text =>
    rw [written] at told
    cases told
    exact ⟨rfl, rfl⟩
  | error fault =>
    rw [written] at told
    cases fault <;> cases told

/-- The error of a call that is saved can be told. -/
theorem Execution.Saves.error_told {e : Execution} {k : Heap} {j : Json} (saves : e.Saves h j k)
    (present : isPresent e.halt.error) :
    ∃ h₁ s, h.Grows h₁ ∧ e.halt.error.plain h₁ = .ok s := by
  obtain ⟨v, taken, -⟩ := saves_iff.mp saves
  obtain ⟨_, h₁, first, taken⟩ := Engine.Work.bind_ok taken
  obtain ⟨_, h₂, second, taken⟩ := Engine.Work.bind_ok taken
  obtain ⟨_, h₃, third, taken⟩ := Engine.Work.bind_ok taken
  obtain ⟨_, h₄, told, -⟩ := Engine.Work.bind_ok taken
  have grows := Heap.Grows.lasting.trans ((Act.allocate_grows _).ok first)
    (Heap.Grows.lasting.trans ((Act.allocate_grows _).ok second) ((Act.allocate_grows _).ok third))
  have shown : ∃ d, errorData e.halt.error h₃ = .ok d h₄ := by
    cases error : e.halt.error with
    | nothing =>
      rw [error] at present
      cases present
    | _ =>
      rw [error] at told
      exact ⟨_, told⟩
  obtain ⟨d, shown⟩ := shown
  obtain ⟨_, _, found, shown⟩ := Engine.Work.bind_ok shown
  cases found
  obtain ⟨s, _, text, -⟩ := Engine.Work.bind_ok shown
  exact ⟨h₃, s, grows, (Act.plain_ok text).2⟩

end Workflow
