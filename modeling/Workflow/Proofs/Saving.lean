import Workflow.Proofs.Grammar
import Workflow.Proofs.JsonTexts
import Workflow.Proofs.Outcomes

/-! Saving as a whole. A snapshot that is saved is accepted when it is loaded. Saving that fails leaves the file as it
was and nothing beside it, unless a directory that is made on the way to the file comes to stand there. -/

namespace Workflow.Script
open Fallible

/-- Data that values are turned into hold no whole number that is too long. -/
theorem Value.toJson_writable {h : Heap} {refuse : Value → DataFault} {depth : Nat} {inside : List Addr} {v : Value} {j : Json}
    (data : v.toJson h (fun w => .error (refuse w)) depth inside = .ok j) : j.isWritable = true := by
  induction depth generalizing v j inside with
  | zero => cases data
  | succ depth ih =>
    have items {inside : List Addr} {values : List Value} {js : List Json}
        (row : values.mapM (Value.toJson h (fun w => .error (refuse w)) depth inside) = .ok js) :
        Json.allWritable js = true := by
      refine Json.allWritable_of (fun j member => ?_)
      obtain ⟨w, -, told⟩ := mapM_ok_origin row member
      exact ih told
    cases v with
    | int n =>
      simp only [Value.toJson, dataInt] at data
      split at data
      · cases data
      · next short =>
        cases data
        rw [Json.isWritable, Bool.not_eq_true']
        simpa using short
    | tuple values =>
      simp only [Value.toJson] at data
      obtain ⟨js, row, data⟩ := bind_ok data
      cases data
      exact items row
    | ref a =>
      simp only [Value.toJson] at data
      split at data
      · cases data
      · split at data
        · obtain ⟨js, row, data⟩ := bind_ok data
          cases data
          exact items row
        · obtain ⟨ms, row, data⟩ := bind_ok data
          cases data
          refine Json.membersWritable_of (fun m member => ?_)
          obtain ⟨entry, -, told⟩ := mapM_ok_origin row member
          obtain ⟨name, -, named⟩ := bind_ok told
          obtain ⟨j, valued, done⟩ := bind_ok named
          cases done
          exact ih valued
        · cases data
    | _ => first
      | (cases data; rfl)
      | cases data

mutual

/-- Every data can be turned into values. -/
theorem ofJson_ok (j : Json) (h : Heap) : ∃ v h', ofJson j h = .ok v h' := by
  match j with
  | .null => exact ⟨_, _, rfl⟩
  | .bool b => exact ⟨_, _, rfl⟩
  | .int n => exact ⟨_, _, rfl⟩
  | .float x => exact ⟨_, _, rfl⟩
  | .str s => exact ⟨_, _, rfl⟩
  | .array js =>
    obtain ⟨values, h', made⟩ := ofJsonItems_ok js h
    exact ⟨_, _, by rw [ofJson]; exact Engine.Work.ok_bind made⟩
  | .object ms =>
    obtain ⟨entries, h', made, -⟩ := ofJsonMembers_ok ms h
    exact ⟨_, _, by rw [ofJson]; exact Engine.Work.ok_bind made⟩

theorem ofJsonItems_ok (js : List Json) (h : Heap) : ∃ values h', ofJsonItems js h = .ok values h' := by
  match js with
  | [] => exact ⟨_, _, rfl⟩
  | j :: js =>
    obtain ⟨v, h₁, first⟩ := ofJson_ok j h
    obtain ⟨values, h₂, others⟩ := ofJsonItems_ok js h₁
    exact ⟨_, _, by rw [ofJsonItems]; exact (Engine.Work.ok_bind first).trans (Engine.Work.ok_bind others)⟩

/-- The members of an object become entries of the same names. -/
theorem ofJsonMembers_ok (ms : List (String × Json)) (h : Heap) : ∃ entries h', ofJsonMembers ms h = .ok entries h' ∧
    entries.map (·.1) = ms.map (fun m => Value.str m.1) := by
  match ms with
  | [] => exact ⟨_, _, rfl, rfl⟩
  | (name, j) :: ms =>
    obtain ⟨v, h₁, first⟩ := ofJson_ok j h
    obtain ⟨entries, h₂, others, names⟩ := ofJsonMembers_ok ms h₁
    refine ⟨(.str name, v) :: entries, h₂, ?_, by rw [List.map_cons, List.map_cons, names]⟩
    rw [ofJsonMembers]
    exact (Engine.Work.ok_bind first).trans (Engine.Work.ok_bind others)

end

/-- An object is turned into a new mapping in which no name is missing. -/
theorem ofJson_object (ms : List (String × Json)) (h : Heap) : ∃ a entries h', ofJson (.object ms) h = .ok (.ref a) h' ∧
    h'.object a = .dict entries ∧ ∀ name ∈ ms.map (·.1), (Entries.named? entries name).isSome = true := by
  obtain ⟨entries, h', made, names⟩ := ofJsonMembers_ok ms h
  refine ⟨_, entries.toArray, _, by rw [ofJson]; exact Engine.Work.ok_bind made, ?_, fun name member => ?_⟩
  · exact Heap.object_of_getElem? (h'.alloc_found _)
  · obtain ⟨m, there, rfl⟩ := List.mem_map.mp member
    have key : Value.str m.1 ∈ entries.map (·.1) := by
      rw [names]
      exact List.mem_map_of_mem there
    obtain ⟨entry, inside, same⟩ := List.mem_map.mp key
    rw [Entries.named?, Entries.get?, Option.isSome_map, List.find?_toArray, List.find?_isSome]
    exact ⟨entry, inside, by rw [same, (Value.sameKey_str _ _).mpr rfl]⟩

end Workflow.Script

namespace Workflow.Store
open Script (Entries Heap Value)
open Engine (Work)
open Fallible

variable {path : FilePath} {r : Result} {v : Value} {w w' : World} {fault : Fault}

/-- The data of a snapshot are an object that names its schema and its state. -/
theorem snapshot_data {h h' : Heap} {j : Json} (taken : r.snapshot h = .ok v h') (data : v.data h' = .ok j) :
    ∃ ms, j = .object ms ∧ Json.membersWritable ms = true ∧ "schema_id" ∈ ms.map (·.1) ∧ "state" ∈ ms.map (·.1) := by
  obtain ⟨d, state, error, errors, rfl, found⟩ := Result.snapshot_made taken
  have writable := Value.toJson_writable data
  obtain ⟨ms, row, done⟩ := bind_ok ((Value.toJson_dict rfl found).symm.trans data)
  cases done
  have named {name : String} {value : Value} (member : (Value.str name, value) ∈ (r.entries state error errors).toList) :
      name ∈ ms.map (·.1) := by
    obtain ⟨m, inside, told⟩ := mapM_ok_found row member
    obtain ⟨_, same, valued⟩ := bind_ok told
    obtain ⟨j, -, done⟩ := bind_ok valued
    cases same
    cases done
    exact List.mem_map_of_mem inside
  exact ⟨ms, rfl, writable, named (by simp [Result.entries]; exact .inl rfl), named (by simp [Result.entries]; exact .inl rfl)⟩

/-- A file that holds the data of a snapshot is accepted. -/
theorem load_accepts {h h' : Heap} {j : Json} (taken : r.snapshot h = .ok v h') (data : v.data h' = .ok j)
    (holds : w.files.read path = .ok j.pretty) : ∃ entries w', load path w = .ok entries w' := by
  obtain ⟨ms, rfl, writable, schema, state⟩ := snapshot_data taken data
  obtain ⟨found, read, kept⟩ := Json.read_pretty_object writable
  obtain ⟨a, entries, h₁, made, there, names⟩ := Script.ofJson_object found w.heap
  have present : w.files.exists? path = true := FileTree.exists?_of_read holds
  have text : Store.read path w = .ok (Json.object ms).pretty w := by
    simp only [Store.read, Bind.bind, EStateM.bind, Script.get_result, holds]
    rfl
  have parsed : parse (Json.object ms).pretty .corrupted w = .ok (.ref a) { w with heap := h₁ } := by
    simp only [parse, read, Job.act, made]
  have mapping : (Value.ref a).entries? h₁ = some entries := by simp only [Value.entries?, there]
  refine ⟨entries, { w with heap := h₁ }, ?_⟩
  simp only [load, Bind.bind, EStateM.bind, Script.get_result, present, Bool.not_true, Bool.false_eq_true, if_false, text,
    parsed, mapping, names _ (kept _ schema), names _ (kept _ state), Bool.and_self, if_true, Pure.pure, EStateM.pure]

/-- A directory that is made on the way to a file comes to stand where nothing was. -/
def Opened (path : FilePath) (w w' : World) (place : List String) : Prop :=
  w.files.find? place = none ∧ w'.files.find? place = some .directory ∧ w.files.Passes path.parent place

/-- A place is as it was, but for a directory that is made there on the way to a file. -/
def Spared (path : FilePath) (w w' : World) (place : List String) : Prop :=
  w'.files.find? place = w.files.find? place ∨ Opened path w w' place

/-- What a snapshot that is saved leaves behind. -/
structure Saved (path : FilePath) (r : Result) (v : Value) (w w' : World) : Prop where
  holds : ∃ h j, r.snapshot w.heap = .ok v h ∧ v.data h = .ok j ∧ w'.files.read path = .ok j.pretty
  accepted : ∃ entries w'', load path w' = .ok entries w''
  alone : ∀ temporary, path.withEnding? ".tmp" = some temporary → w'.files.exists? temporary = false
  others : ∀ place, place ≠ w.files.placeOf path →
    (∀ temporary, path.withEnding? ".tmp" = some temporary → place ≠ w.files.placeOf temporary) → Spared path w w' place

/-- What a snapshot that could not be saved leaves behind. A path that never steps upwards does not lead through its own
place, where a directory could be made. -/
structure Unsaved (path : FilePath) (w w' : World) : Prop where
  kept : Spared path w w' (w.files.placeOf path)
  sibling : ∀ temporary, path.withEnding? ".tmp" = some temporary →
    w'.files.find? (w.files.placeOf temporary) = none ∨ Spared path w w' (w.files.placeOf temporary)
  others : ∀ place, (∀ temporary, path.withEnding? ".tmp" = some temporary → place ≠ w.files.placeOf temporary) →
    Spared path w w' place
  straight : ".." ∉ path.parts → ∀ place,
    (place = w.files.placeOf path ∨ ∃ temporary, path.withEnding? ".tmp" = some temporary ∧ place = w.files.placeOf temporary) →
    ¬ Opened path w w' place

/-- A file that is written and moved is not where it was written, and nothing else has changed. -/
theorem moved_elsewhere {files t : FileTree} (done : moved t path temporary text = .ok files)
    (apart : t.placeOf temporary ≠ t.placeOf path) : files.exists? temporary = false ∧
      ∀ place, place ≠ t.placeOf path → place ≠ t.placeOf temporary → files.find? place = t.find? place := by
  obtain ⟨t₁, written, moved⟩ := bind_ok done
  have same := (FileTree.write_changes written).placeOf
  obtain ⟨-, -, rfl⟩ := FileTree.write_ok written
  obtain ⟨gone, others⟩ := FileTree.move_elsewhere moved (by rwa [same, same])
  refine ⟨gone, fun place target source => ?_⟩
  rw [others place (by rwa [same]) (by rwa [same]), FileTree.find?_put_other t _ source]

theorem Spared.of_made {path : FilePath} {t : FileTree} (made : FileTree.Made (w.files.Passes path.parent) w.files t)
    {place : List String} (same : w'.files.find? place = t.find? place) : Spared path w w' place := by
  rw [Spared, Opened, same]
  exact made.finds place

/-- On the way to a path that never steps upwards there are only places around its own and around those beside it. -/
theorem not_opened (working : w.files.find? w.files.home = some .directory) (straight : ".." ∉ path.parts) {place : List String}
    (here : place = w.files.placeOf path ∨
      ∃ temporary, path.withEnding? ".tmp" = some temporary ∧ place = w.files.placeOf temporary) :
    ¬ Opened path w w' place := by
  rintro ⟨free, -, parts, before, passed⟩
  have outside : ".." ∉ parts := fun inside => straight ((before.trans (List.dropLast_prefix _)).mem inside)
  have short : parts.length ≤ path.parts.length - 1 := by simpa [FilePath.parent] using before.length_le
  rw [FileTree.placeOf_straight _ outside] at passed
  obtain here | ⟨temporary, made, here⟩ := here
  · rw [here, FileTree.placeOf_straight _ straight] at passed
    have same : path.parts = parts := List.append_cancel_left passed
    -- Only the path of the directory that paths start from is as long as the way to it.
    have root : path.parts = [] := List.eq_nil_of_length_eq_zero (by rw [← same] at short; omega)
    rw [here, FileTree.placeOf_straight _ straight, root, List.append_nil] at free
    split at free
    · cases free
    · rw [working] at free
      cases free
  · obtain ⟨last, -⟩ := FilePath.withEnding?_apart w.files made
    obtain ⟨outer, name, named, rfl⟩ := FilePath.withEnding?_made made
    have beside : ".." ∉ outer ++ [FilePath.nameWithEnding name ".tmp"] := by
      rw [named] at straight
      simp only [List.getLast?_concat, ne_eq, Option.some.injEq] at last
      simp only [List.mem_append, List.mem_singleton, not_or] at straight ⊢
      exact ⟨straight.1, Ne.symm last⟩
    rw [here, FileTree.placeOf_straight _ beside] at passed
    have same : outer ++ [FilePath.nameWithEnding name ".tmp"] = parts := List.append_cancel_left passed
    rw [← same, named, List.length_append, List.length_append, List.length_singleton, List.length_singleton] at short
    omega

/-- A file whose name ends in something else is not the one that it is written to first. -/
theorem temporary_apart {temporary : FilePath} (t : FileTree)
    (named : ∀ name, path.parts.getLast? = some name → ¬ ".tmp".toList <:+ name.toList)
    (made : path.withEnding? ".tmp" = some temporary) : t.placeOf temporary ≠ t.placeOf path := by
  obtain ⟨-, same | apart⟩ := FilePath.withEnding?_apart t made
  · obtain ⟨outer, name, parts, rfl⟩ := FilePath.withEnding?_made made
    have last : path.parts.getLast? = some name := by rw [parts, List.getLast?_concat]
    have still : FilePath.nameWithEnding name ".tmp" = name := by
      have both := (congrArg FilePath.parts same).trans parts
      exact (List.append_singleton_inj.mp both).2
    refine absurd ?_ (named name last)
    rw [← still, FilePath.nameWithEnding, String.toList_append]
    exact List.suffix_append _ _
  · exact apart

/-- Saving is all or nothing, as long as the file is not the way to itself. -/
theorem save_atomic (path : FilePath) (r : Result) (w : World)
    (named : ∀ name, path.parts.getLast? = some name → ¬ ".tmp".toList <:+ name.toList)
    (working : w.files.find? w.files.home = some .directory) :
    (∀ v w', save path r w = .ok v w' → Saved path r v w w') ∧
      ∀ fault w', save path r w = .error fault w' → Unsaved path w w' := by
  refine ⟨fun v w' saved => ?_, fun fault w' failed => ?_⟩
  · obtain ⟨h, j, t, temporary, files, note, snapshot, data, made, found, done, rfl⟩ := save_steps saved
    obtain ⟨gone, others⟩ := moved_elsewhere done (temporary_apart t named found)
    refine ⟨⟨h, j, snapshot, data, read_of_moved done⟩, load_accepts snapshot data (read_of_moved done), ?_, ?_⟩
    · intro other same
      cases found.symm.trans same
      exact gone
    · intro place target source
      refine .of_made made (others place ?_ ?_)
      · rwa [made.placeOf]
      · rw [made.placeOf]
        exact source temporary found
  · obtain ⟨t, made, same | ⟨temporary, text, written, found, wrote, removed, apart⟩⟩ := save_stops failed
    · have spared place : Spared path w w' place := .of_made made (by rw [same])
      exact ⟨spared _, fun _ _ => .inr (spared _), fun _ _ => spared _, fun straight _ => not_opened working straight⟩
    · have first := FileTree.write_changes wrote
      obtain ⟨text', -, files⟩ := FileTree.remove_ok removed
      rw [first.placeOf] at files
      obtain ⟨-, free, rfl⟩ := FileTree.write_ok wrote
      rw [made.placeOf] at files free apart
      have spared place (other : place ≠ w.files.placeOf temporary) : Spared path w w' place := by
        refine .of_made made ?_
        rw [files, FileTree.find?_erase_other _ other, FileTree.find?_put_other _ _ other]
      refine ⟨spared _ (made.placeOf path ▸ apart.symm), ?_, fun _ apart => spared _ (apart temporary found),
        fun straight _ => not_opened working straight⟩
      intro other same
      cases found.symm.trans same
      left
      rw [files, FileTree.find?_erase_self _ (FileTree.inner_of_not_directory free)]

/-- A result with an empty context, and a world without files that holds its parts. -/
def plainResult : Result := { schema := .str "s", context := .ref 1, indexes := .ref 0 }

def plainWorld : World := { heap := { objects := #[.list #[.int 0], .dict #[]] } }

/-- A snapshot is saved in a file of the working directory, and nothing else is there. -/
theorem save_atomic_plain : (∀ name, ["state.json"].getLast? = some name → ¬ ".tmp".toList <:+ name.toList) ∧
    plainWorld.files.find? plainWorld.files.home = some .directory ∧
    ∃ v w', save ⟨false, ["state.json"]⟩ plainResult plainWorld = .ok v w' ∧
      Saved ⟨false, ["state.json"]⟩ plainResult v plainWorld w' := by
  have named : ∀ name, ["state.json"].getLast? = some name → ¬ ".tmp".toList <:+ name.toList := by
    rintro name ⟨⟩
    decide
  have runs : Engine.passes (fun _ _ => true) (save ⟨false, ["state.json"]⟩ plainResult plainWorld) = true := by decide +kernel
  obtain ⟨v, w', saved, -⟩ := Engine.exists_of_passes runs
  exact ⟨named, rfl, v, w', saved, (save_atomic _ _ _ named rfl).1 v w' saved⟩

/-- A file that is the way to itself cannot be saved, and a directory comes to stand where nothing was. -/
theorem save_opens_own_place : ∃ fault w', save ⟨false, ["a", "..", "a"]⟩ plainResult plainWorld = .error fault w' ∧
    plainWorld.files.find? ["a"] = none ∧ w'.files.find? ["a"] = some .directory := by
  have fails : (match save ⟨false, ["a", "..", "a"]⟩ plainResult plainWorld with
      | .ok _ _ => false
      | .error _ w' => w'.files.find? ["a"] == some .directory) = true := by decide +kernel
  split at fails
  · cases fails
  · next fault w' failed => exact ⟨fault, w', failed, rfl, by simpa using fails⟩

end Workflow.Store
