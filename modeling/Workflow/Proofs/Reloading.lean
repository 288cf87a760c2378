import Workflow.Proofs.Givens
import Workflow.Proofs.PlainTexts
import Workflow.Proofs.Trees

/-! Snapshots that are loaded again. The file that a halted call leaves holds the data of its snapshot, and from there come
the name of its schema, its position, and a new tree of the data of its context. -/

namespace Workflow.Script
open Fallible

variable {h : Heap} {other : Value → Except DataFault Json}

/-- The first entry of a mapping with a name becomes the first member. -/
theorem entries_data {name : String} {v : Value} {entries : List (Value × Value)} {ms : List (String × Json)} {depth : Nat}
    {inside : List Addr} (row : ((.str name, v) :: entries).mapM (fun (key, w) => do
      let name ← memberName h key
      return (name, ← w.toJson h other depth inside)) = .ok ms) :
    ∃ k more, v.toJson h other depth inside = .ok k ∧ entries.mapM (fun (key, w) => do
      let name ← memberName h key
      return (name, ← w.toJson h other depth inside)) = .ok more ∧ ms = (name, k) :: more := by
  rw [List.mapM_cons] at row
  obtain ⟨m, here, row⟩ := bind_ok row
  obtain ⟨more, others, row⟩ := bind_ok row
  cases row
  obtain ⟨_, named, here⟩ := bind_ok here
  cases named
  obtain ⟨k, told, done⟩ := bind_ok here
  cases done
  exact ⟨k, more, told, others, rfl⟩

/-- A mapping becomes an object. -/
theorem mapping_data {a : Addr} {entries : Entries} {depth : Nat} {inside : List Addr} {j : Json}
    (found : h.object a = .dict entries)
    (data : Value.toJson h other depth inside (.ref a) = .ok j) : ∃ n ms, entries.toList.mapM (fun (key, w) => do
      let name ← memberName h key
      return (name, ← w.toJson h other n (a :: inside))) = .ok ms ∧ j = .object ms := by
  cases depth with
  | zero => cases data
  | succ n =>
    cases within : inside.contains a with
    | true =>
      simp only [Value.toJson, within] at data
      cases data
    | false =>
      obtain ⟨ms, row, done⟩ := bind_ok ((Value.toJson_dict within found).symm.trans data)
      cases done
      exact ⟨n, ms, row, rfl⟩

namespace Heap

mutual

/-- A tree of some data comes to these data. -/
theorem Tree.data {v : Value} {j k : Json} {as inside : List Addr} {depth : Nat} (tree : h.Tree v j as)
    (data : v.toJson h other depth inside = .ok k) : k = j := by
  obtain ⟨depth, rfl⟩ : ∃ n, depth = n + 1 := by
    cases depth with
    | zero => cases data
    | succ n => exact ⟨n, rfl⟩
  cases tree with
  | null => cases data; rfl
  | bool b => cases data; rfl
  | int n =>
    simp only [Value.toJson, dataInt] at data
    split at data
    · cases data
    · cases data; rfl
  | float x => cases data; rfl
  | str s => cases data; rfl
  | array found trees apart =>
    simp only [Value.toJson, Heap.object_of_getElem? found] at data
    split at data
    · cases data
    · obtain ⟨ks, row, done⟩ := bind_ok data
      cases done
      rw [trees.data row]
  | object found branches apart =>
    simp only [Value.toJson, Heap.object_of_getElem? found] at data
    split at data
    · cases data
    · obtain ⟨ms, row, done⟩ := bind_ok data
      cases done
      rw [branches.data row]

theorem Trees.data {vs : List Value} {js ks : List Json} {as inside : List Addr} {depth : Nat} (trees : h.Trees vs js as)
    (row : vs.mapM (Value.toJson h other depth inside) = .ok ks) : ks = js := by
  cases trees with
  | nil => cases row; rfl
  | cons first rest apart =>
    rw [List.mapM_cons] at row
    obtain ⟨k, here, row⟩ := bind_ok row
    obtain ⟨ks, others, row⟩ := bind_ok row
    cases row
    rw [first.data here, rest.data others]

theorem Branches.data {entries : List (Value × Value)} {ms ns : List (String × Json)} {as inside : List Addr} {depth : Nat}
    (branches : h.Branches entries ms as) (row : entries.mapM (fun (key, w) => do
      let name ← memberName h key
      return (name, ← w.toJson h other depth inside)) = .ok ns) : ns = ms := by
  cases branches with
  | nil => cases row; rfl
  | cons first rest apart =>
    obtain ⟨k, more, told, others, rfl⟩ := entries_data row
    rw [first.data told, rest.data others]

end

end Heap

namespace Heap
variable {as : List Addr}

/-- A tree of an object is a mapping. -/
theorem Tree.mapping {v : Value} {ms : List (String × Json)} (tree : h.Tree v (.object ms) as) :
    ∃ a entries bs, v = .ref a ∧ h.objects[a]? = some (.dict entries) ∧ h.Branches entries.toList ms bs ∧ as = a :: bs := by
  cases tree with
  | object found inside apart => exact ⟨_, _, _, rfl, found, inside, rfl⟩

theorem Trees.ints_eq {vs : List Value} {cursors : List Int} (trees : h.Trees vs (cursors.map Json.int) as) :
    vs = cursors.map Value.int := by
  induction cursors generalizing vs as with
  | nil =>
    cases trees
    rfl
  | cons n rest ih =>
    cases trees with
    | cons first others apart =>
      cases first
      rw [List.map_cons, ih others]

/-- A tree of an array of whole numbers is a list of them. -/
theorem Tree.ints {v : Value} {cursors : List Int} (tree : h.Tree v (.array (cursors.map Json.int)) as) :
    ∃ a, v = .ref a ∧ h.objects[a]? = some (.list (cursors.map Value.int).toArray) := by
  cases tree with
  | array found inside apart =>
    refine ⟨_, rfl, ?_⟩
    rw [← inside.ints_eq]
    exact found

theorem Branches.uncons {row : List (Value × Value)} {name : String} {j : Json} {ms : List (String × Json)}
    (branches : h.Branches row ((name, j) :: ms) as) :
    ∃ v rest bs cs, row = (.str name, v) :: rest ∧ h.Tree v j bs ∧ h.Branches rest ms cs ∧ as = bs ++ cs := by
  cases branches with
  | cons first others apart => exact ⟨_, _, _, _, rfl, first, others, rfl⟩

end Heap

theorem Heap.Trees.ints (h : Heap) (cursors : List Int) : h.Trees (cursors.map Value.int) (cursors.map Json.int) [] := by
  induction cursors with
  | nil => exact .nil
  | cons n rest ih => exact .cons (.int n) ih (by simp)

end Workflow.Script

namespace Workflow
open Fallible
open Script (Addr Entries Heap Value)

/-- The data of a context and of a position in a schema. -/
def State.json (context : Json) (cursors : List Int) : Json :=
  .object [("context", context), ("indexes", .array (cursors.map Json.int))]

/-- Data of a snapshot tell of its schema, of its state and of its step. -/
def Result.Snapshot (schema stepId : String) (state j : Json) : Prop :=
  ∃ finished more, j = .object (("schema_id", .str schema) :: ("state", state) :: ("finished", finished) ::
    ("step_id", .str stepId) :: more)

/-- What a halted call saves are its schema, its state and its step. -/
theorem Execution.Saves.snapshot {e : Execution} {halt : Engine.Halt} {cursors : List Int} {h k : Heap} {j jc : Json}
    {as : List Addr} {id : String} (saves : e.Saves h j k) (halted : e.halted? = some (halt, cursors))
    (named : e.call.schema = .str id)
    (listed : halt.errors = .nothing ∨ ∃ a items, halt.errors = .ref a ∧ h.objects[a]? = some (.list items))
    (tree : h.Tree e.call.context jc as) :
    Result.Snapshot id e.report.stepId (State.json jc cursors) j := by
  obtain ⟨r, h₁, v, result, taken, data⟩ := saves
  have made := (Execution.result_eq halted h).symm.trans result
  obtain ⟨schema, context, indexes, stepId, errors, rfl⟩ : r.schema = .str id ∧ r.context = e.call.context ∧
      r.indexes = .ref h.objects.size ∧ r.stepId = .str e.report.stepId ∧ r.errors = halt.errors ∧
      h₁ = (h.alloc (.list (cursors.map Value.int).toArray)).2 := by
    cases made
    exact ⟨named, rfl, rfl, rfl, rfl, rfl⟩
  have first := Heap.Extends.alloc h (.list (cursors.map Value.int).toArray)
  have lists : ∃ found, r.Lists (h.alloc (.list (cursors.map Value.int).toArray)).2 found := by
    obtain missing | ⟨a, items, same, found⟩ := listed
    · exact ⟨[], .inl ⟨errors.trans missing, rfl⟩⟩
    · exact ⟨items.toList, .inr ⟨a, errors.trans same, first a _ found⟩⟩
  obtain ⟨_, lists⟩ := lists
  obtain ⟨_, _, ran, more, holds⟩ | ⟨_, _, _, _, -, -, ran⟩ := Result.snapshot_writes indexes (h.alloc_found _) lists
  · cases taken.symm.trans ran
    obtain ⟨d, s, l, entries, rfl, saved, named, stated, list⟩ := holds
    obtain ⟨d', state, error, found, same, made⟩ := Result.snapshot_made taken
    cases same
    rw [Heap.object_of_getElem? saved] at made
    cases made
    cases (r.named_state _ _ _).symm.trans named
    obtain ⟨_, ms, row, rfl⟩ := Script.mapping_data (Heap.object_of_getElem? saved) data
    have listed : (r.entries (.ref s) error found).toList = (.str "schema_id", r.schema) :: (.str "state", .ref s) ::
        (.str "finished", r.finished) :: (.str "step_id", r.stepId) :: (presentEntry "input_required" r.inputRequired ++
          presentEntry "error" error ++ presentEntry "errors" found ++ presentEntry "expires" r.expires) := by
      simp [Result.entries]
    rw [listed, schema, stepId] at row
    obtain ⟨k₁, ms₁, told₁, row₁, rfl⟩ := Script.entries_data row
    obtain ⟨k₂, ms₂, told₂, row₂, rfl⟩ := Script.entries_data row₁
    obtain ⟨k₃, ms₃, told₃, row₃, rfl⟩ := Script.entries_data row₂
    obtain ⟨k₄, ms₄, told₄, row₄, rfl⟩ := Script.entries_data row₃
    have kept : k.Tree r.context jc as := by
      rw [context]
      exact tree.congr (fun a _ o found => (first.trans more) a o found)
    have state : k₂ = State.json jc cursors := by
      obtain ⟨_, ns, inner, rfl⟩ := Script.mapping_data (Heap.object_of_getElem? stated) told₂
      obtain ⟨k₅, ns₁, told₅, row₅, rfl⟩ := Script.entries_data inner
      obtain ⟨k₆, ns₂, told₆, row₆, rfl⟩ := Script.entries_data row₅
      have placed : k.Tree (.ref l) (.array (cursors.map Json.int)) [l] :=
        .array list (.ints k cursors) List.not_mem_nil
      cases row₆
      rw [kept.data told₅, placed.data told₆]
      rfl
    have id : k₁ = .str id := (Heap.Tree.str id).data told₁
    have step : k₄ = .str e.report.stepId := (Heap.Tree.str e.report.stepId).data told₄
    rw [id, state, step]
    exact ⟨k₃, ms₄, rfl⟩
  · cases taken.symm.trans ran

theorem Script.Entries.named?_row {entries : Entries} {row : List (Value × Value)} (same : entries.toList = row) (name : String) :
    Entries.named? entries name = (row.find? (fun entry => entry.1.sameKey (.str name))).map (·.2) := by
  rw [Entries.named?, Entries.get?, ← Array.find?_toList, same]

/-- What entries tell of a halted call: its schema, its step, and its state, whose context is a tree of objects of a heap. -/
structure Restored (schema stepId : String) (jc : Json) (cursors : List Int) (entries : Entries) (context : Value) (h : Heap) :
    Prop where
  schema : Document.valueOf entries "schema_id" = .str schema
  step : Document.valueOf entries "step_id" = .str stepId
  state : ∃ s l, Document.valueOf entries "state" = .ref s ∧
    h.objects[s]? = some (.dict #[(.str "context", context), (.str "indexes", .ref l)]) ∧
    h.objects[l]? = some (.list (cursors.map Value.int).toArray)
  tree : ∃ as, h.Tree context jc as ∧ ∀ a ∈ as, a < h.objects.size

theorem Restored.of_tree {schema stepId : String} {jc j : Json} {cursors : List Int} {a : Addr} {entries : Entries} {h : Heap}
    {as : List Addr} (snapshot : Result.Snapshot schema stepId (State.json jc cursors) j) (tree : h.Tree (.ref a) j as)
    (found : h.objects[a]? = some (.dict entries)) (inside : ∀ b ∈ as, b < h.objects.size) :
    ∃ context, Restored schema stepId jc cursors entries context h := by
  obtain ⟨finished, more, rfl⟩ := snapshot
  obtain ⟨_, entries', bs, same, found', members, rfl⟩ := tree.mapping
  cases same
  cases found.symm.trans found'
  obtain ⟨v₁, rest₁, as₁, bs₁, row, first, members₁, rfl⟩ := members.uncons
  obtain ⟨v₂, rest₂, as₂, bs₂, rfl, second, members₂, rfl⟩ := members₁.uncons
  obtain ⟨v₃, rest₃, as₃, bs₃, rfl, third, members₃, rfl⟩ := members₂.uncons
  obtain ⟨v₄, rest₄, as₄, bs₄, rfl, fourth, members₄, rfl⟩ := members₃.uncons
  obtain ⟨s, inner, bs, rfl, stated, parts, rfl⟩ := second.mapping
  obtain ⟨context, rest₅, as₅, bs₅, row', kept, parts₁, rfl⟩ := parts.uncons
  obtain ⟨v₆, rest₆, as₆, bs₆, rfl, placed, parts₂, rfl⟩ := parts₁.uncons
  obtain ⟨l, rfl, listed⟩ := placed.ints
  cases parts₂
  cases first
  cases fourth
  refine ⟨context, ?_, ?_, ⟨s, l, ?_, ?_, listed⟩, as₅, kept, fun a member => inside a ?_⟩
  · rw [Document.valueOf, Entries.named?_row row]
    rfl
  · rw [Document.valueOf, Entries.named?_row row]
    rfl
  · rw [Document.valueOf, Entries.named?_row row]
    rfl
  · have same : inner = #[(.str "context", context), (.str "indexes", .ref l)] := Array.toList_inj.mp row'
    rw [← same]
    exact stated
  · simp [member]

namespace Store

/-- What is loaded from a file is a mapping that holds some data, in new objects. -/
structure Loads (path : FilePath) (j : Json) (w : World) (entries : Entries) (h : Heap) : Prop where
  loaded : load path w = .ok entries { w with heap := h }
  grows : w.heap.Extends h
  tree : ∃ a as, h.objects[a]? = some (.dict entries) ∧ h.Tree (.ref a) j as ∧ w.heap.Fresh h as

/-- A snapshot of plain data is loaded from its text as it was. -/
theorem load_snapshot {path : FilePath} {w : World} {schema stepId : String} {state j : Json}
    (holds : w.files.read path = .ok j.pretty) (plain : j.isPlain = true) (snapshot : Result.Snapshot schema stepId state j)
    (idle : w.heap.handling = []) : ∃ entries h, Loads path j w entries h ∧ h.handling = [] := by
  obtain ⟨v, h, as, made, tree, grows, fresh⟩ := Script.ofJson_tree j w.heap
  have present : w.files.exists? path = true := FileTree.exists?_of_read holds
  have text : read path w = .ok j.pretty w := by
    simp only [read, Bind.bind, EStateM.bind, Script.get_result, holds]
    rfl
  have parsed : parse j.pretty .corrupted w = .ok v { w with heap := h } := by
    simp only [parse, Json.read_pretty plain, Job.act, made]
  obtain ⟨finished, more, rfl⟩ := snapshot
  obtain ⟨a, entries, bs, rfl, found, members, rfl⟩ := tree.mapping
  obtain ⟨v₁, rest₁, as₁, bs₁, row, -, members₁, -⟩ := members.uncons
  obtain ⟨v₂, rest₂, as₂, bs₂, rfl, -, -, -⟩ := members₁.uncons
  have first : (Entries.named? entries "schema_id").isSome = true := by
    rw [Entries.named?_row row]
    rfl
  have second : (Entries.named? entries "state").isSome = true := by
    rw [Entries.named?_row row]
    rfl
  have mapping : (Value.ref a).entries? h = some entries := by
    simp only [Value.entries?, Heap.object_of_getElem? found]
  refine ⟨entries, h, ⟨?_, grows, a, _, found, tree, fresh⟩, Script.ofJson_idle made idle⟩
  simp only [load, Bind.bind, EStateM.bind, Script.get_result, present, Bool.not_true, Bool.false_eq_true, if_false, text,
    parsed, mapping, first, second, Bool.and_self, if_true, Pure.pure, EStateM.pure]

/-- From a snapshot that is loaded, the state of its call comes back. -/
theorem Loads.restored {path : FilePath} {w : World} {schema stepId : String} {cursors : List Int} {jc j : Json}
    {entries : Entries}
    {h : Heap} (loads : Loads path j w entries h) (snapshot : Result.Snapshot schema stepId (State.json jc cursors) j) :
    ∃ context, Restored schema stepId jc cursors entries context h := by
  obtain ⟨a, as, found, tree, fresh⟩ := loads.tree
  exact Restored.of_tree snapshot tree found (fun b member => (fresh b member).2)

end Store

end Workflow
