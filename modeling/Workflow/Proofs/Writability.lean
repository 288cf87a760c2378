import Workflow.Proofs.Stored

/-! Paths that a state can be written to. One that could be written to once can be written to again after each state that
was saved there, and a state that is there can be removed. -/

namespace Workflow
open Script (ErrorClass Heap Value)
open Engine (Work)

namespace FileTree
variable {t t' : FileTree} {place : List String} {p source target : FilePath} {text : String}

theorem write_located (located : t.locate p = .ok place) (other : t.find? place ≠ some .directory) :
    t.write p text = .ok (t.put place (.file text)) := by
  simp only [write, located, Bind.bind, Except.bind]

theorem move_located (found : t.read source = .ok text) (named : target.parts.getLast? ≠ some "..")
    (located : t.locate target = .ok place) (other : t.find? place ≠ some .directory) : ∃ t', t.move source target = .ok t' := by
  have last : (target.parts.getLast? == some "..") = false := by simpa using named
  refine ⟨if t.placeOf source == place then t else (t.erase (t.placeOf source)).put place (.file text), ?_⟩
  simp only [move, last, found, (read_ok found).1, located, Bind.bind, Except.bind, Bool.false_eq_true, if_false]

theorem isDirectory_iff : t.isDirectory p = true ↔ ∃ place, t.locate p = .ok place ∧ t.find? place = some .directory := by
  constructor
  · intro there
    unfold isDirectory node? at there
    split at there
    · next place located => exact ⟨place, located, beq_iff_eq.mp there⟩
    · cases there
  · rintro ⟨place, located, there⟩
    simp only [isDirectory, node?, located, there, beq_self_eq_true]

theorem Changes.isDirectory {places : List String → Prop} (changes : Changes places t t') (there : t.isDirectory p = true) :
    t'.isDirectory p = true := by
  obtain ⟨place, located, there⟩ := isDirectory_iff.mp there
  exact isDirectory_iff.mpr ⟨place, changes.locate located, changes.directories _ there⟩

/-- A file that is not among those that change is read as before. -/
theorem Changes.read {places : List String → Prop} (changes : Changes places t t') (apart : ¬ places (t.placeOf p))
    (found : t.read p = .ok text) : t'.read p = .ok text := by
  obtain ⟨located, there⟩ := read_ok found
  have kept : t'.textAt (t.placeOf p) = some text := by
    rw [changes.texts _ apart, textAt, there]
  refine read_of_find? (changes.locate located) ?_
  unfold textAt at kept
  split at kept
  · next found =>
    cases kept
    exact found
  · cases kept

theorem makeDirectory_isDirectory (made : t.makeDirectory p = .ok t') : t'.isDirectory p = true := by
  obtain ⟨place, located, made⟩ := Fallible.bind_ok made
  split at made
  · cases made
  · next free =>
    cases made
    have other : t.find? place ≠ some .directory := by simp [free]
    exact isDirectory_iff.mpr
      ⟨place, (put_changes _ other).locate located, find?_put_self t _ (inner_of_not_directory other)⟩

/-- A directory that was made is there. -/
theorem makeDirectories_isDirectory {depth : Nat} (made : t.makeDirectories depth p = (.ok (), t')) :
    t'.isDirectory p = true := by
  cases depth with
  | zero => cases made
  | succ depth =>
    rw [makeDirectories] at made
    split at made
    · next t₁ first =>
      cases made
      exact makeDirectory_isDirectory first
    · split at made
      · cases made
      · split at made
        · cases made
        · split at made
          · next t₂ last =>
            cases made
            exact makeDirectory_isDirectory last
          · split at made
            · next there =>
              cases made
              exact there
            · cases made
    · split at made
      · next there =>
        cases made
        exact there
      · cases made

/-- Nothing has to be made where a directory is. -/
theorem makeDirectories_there (there : t.isDirectory p = true) (depth : Nat) :
    t.makeDirectories (depth + 1) p = (.ok (), t) := by
  obtain ⟨place, located, found⟩ := isDirectory_iff.mp there
  have taken : t.makeDirectory p = .error .fileExists := by
    simp only [makeDirectory, located, Bind.bind, Except.bind, found]
  rw [makeDirectories, taken]
  simp only [there, if_true]

theorem makeDirectories_changes {depth : Nat} (made : t.makeDirectories depth p = (.ok (), t')) :
    Changes (fun _ => False) t t' := by
  have changes := (t.makeDirectories_made depth p).changes
  rwa [made] at changes

/-- Whatever is written, it can be brought to a path by way of a file beside it. -/
def Writable (t : FileTree) (path : FilePath) : Prop :=
  ∃ t' temporary, t.makeDirectories (path.parts.length + 1) path.parent = (.ok (), t') ∧
    path.withEnding? ".tmp" = some temporary ∧ ∀ text, ∃ files, Store.moved t' path temporary text = .ok files

/-- The places of a path and of the file beside it. -/
def Used (t : FileTree) (path : FilePath) (place : List String) : Prop :=
  place = t.placeOf path ∨ ∃ temporary, path.withEnding? ".tmp" = some temporary ∧ place = t.placeOf temporary

/-- A move changes what is at its source and at its target. -/
theorem move_changes (moved : t.move source target = .ok t') :
    Changes (fun place => place = t.placeOf source ∨ place = t.placeOf target) t t' := by
  obtain ⟨text, found, located, other, rfl⟩ := move_ok moved
  split
  · exact .refl t
  · next apart =>
    have first : Changes (· = t.placeOf source) t (t.erase (t.placeOf source)) :=
      erase_changes (by simp [(read_ok found).2])
    have free : (t.erase (t.placeOf source)).find? (t.placeOf target) ≠ some .directory := by
      rwa [find?_erase_other t (Ne.symm apart)]
    exact (first.mono (fun _ => .inl)).trans ((put_changes (.file text) free).mono (fun _ => .inr))

variable {path temporary : FilePath} {files : FileTree}

theorem moved_changes (made : path.withEnding? ".tmp" = some temporary) (done : Store.moved t path temporary text = .ok files) :
    Changes (t.Used path) t files := by
  obtain ⟨t₁, written, moved⟩ := Fallible.bind_ok done
  have first := write_changes written
  have second := move_changes moved
  rw [first.placeOf, first.placeOf] at second
  have beside : t.Used path (t.placeOf temporary) := .inr ⟨temporary, made, rfl⟩
  refine (first.mono (fun place same => same ▸ beside)).trans (second.mono (fun place same => ?_))
  obtain same | same := same
  · exact same ▸ beside
  · exact .inl same

theorem moved_free (done : Store.moved t path temporary text = .ok files) :
    files.find? (t.placeOf temporary) ≠ some .directory := by
  obtain ⟨t₁, written, moved⟩ := Fallible.bind_ok done
  have home := (write_changes written).placeOf
  obtain ⟨_, found, -, -, rfl⟩ := move_ok moved
  have there := (read_ok found).2
  rw [home] at there
  rw [home, home]
  split
  · rw [there]
    simp
  · next apart =>
    have other : t₁.find? (t.placeOf temporary) ≠ some .directory := by simp [there]
    rw [find?_put_other _ _ apart, find?_erase_self _ (inner_of_not_directory other)]
    simp

/-- What could be brought to a path can be brought there after something else was. -/
theorem moved_again (made : path.withEnding? ".tmp" = some temporary) (done : Store.moved t path temporary text = .ok files)
    {other : String} {after : FileTree} (could : Store.moved t path temporary other = .ok after) :
    ∃ again, Store.moved files path temporary other = .ok again := by
  have changes := moved_changes made done
  obtain ⟨t₁, written, moved⟩ := Fallible.bind_ok could
  obtain ⟨located, -, rfl⟩ := write_ok written
  have named : path.parts.getLast? ≠ some ".." := by
    intro upwards
    simp only [move, upwards, beq_self_eq_true, if_true] at moved
    cases moved
  have free := moved_free done
  have again : files.write temporary other = _ := write_located (changes.locate located) free
  obtain ⟨kept, there⟩ := read_ok (Store.read_of_moved done)
  rw [changes.placeOf] at kept there
  have later := put_changes (.file other) free
  have other : (files.put (t.placeOf temporary) (.file other)).find? (t.placeOf path) ≠ some .directory := by
    by_cases same : t.placeOf path = t.placeOf temporary
    · rw [same, find?_put_self _ _ (inner_of_not_directory free)]
      simp
    · rw [find?_put_other _ _ same, there]
      simp
  obtain ⟨last, moved⟩ := move_located (read_written again) named (later.locate kept) other
  exact ⟨last, by simp only [Store.moved, again, Bind.bind, Except.bind, moved]⟩

namespace Writable
variable {w : World}

/-- A snapshot can be saved at a path that can be written to, which can be written to again. -/
theorem save {r : Result} {v : Value} {h : Heap} {j : Json} (writable : w.files.Writable path)
    (taken : r.snapshot w.heap = .ok v h) (data : v.data h = .ok j) :
    ∃ w', Store.save path r w = .ok v w' ∧ w'.heap = h ∧ Changes (w.files.Used path) w.files w'.files ∧
      w'.files.Writable path := by
  obtain ⟨t, temporary, around, made, could⟩ := writable
  obtain ⟨files, done⟩ := could j.pretty
  have first := makeDirectories_changes around
  have second := moved_changes made done
  refine ⟨{ w with heap := h, files, journal := w.journal.push (.logged
    { logger := Store.logger, level := .debug, message := s!"Saved execution state to {path.text}" }) }, ?_, rfl, ?_, ?_⟩
  · have shot : Job.act r.snapshot w = .ok v { w with heap := h } := by simp only [Job.act, taken]
    have told : Store.textOf r.schema v { w with heap := h } = .ok j.pretty { w with heap := h } := by
      simp only [Store.textOf, Bind.bind, EStateM.bind, Script.get_result, data]
      rfl
    have ready : Store.makeAround path { w with heap := h } = .ok () { w with heap := h, files := t } := by
      simp only [Store.makeAround, around]
    have replaced : Store.replace path temporary j.pretty { w with heap := h, files := t } =
        .ok () { w with heap := h, files } := Store.replace_of_moved done
    refine (Work.ok_bind shot).trans ((Work.ok_bind told).trans ((Work.ok_bind ready).trans ?_))
    simp only [made]
    exact Work.ok_bind replaced
  · refine (first.mono (fun _ => False.elim)).trans (second.mono (fun place used => ?_))
    simpa only [Used, first.placeOf] using used
  · have there := makeDirectories_isDirectory around
    refine ⟨files, temporary, makeDirectories_there (second.isDirectory there) _, made, fun text => ?_⟩
    obtain ⟨after, could⟩ := could text
    exact moved_again made done could

/-- What is at a path that can be written to is no directory. -/
theorem free {t : FileTree} (writable : t.Writable path) : t.find? (t.placeOf path) ≠ some .directory := by
  obtain ⟨t', temporary, around, made, could⟩ := writable
  obtain ⟨files, done⟩ := could ""
  have first := makeDirectories_changes around
  have second := moved_changes made done
  intro there
  have kept := (read_ok (Store.read_of_moved done)).2
  rw [second.placeOf, first.placeOf] at kept
  cases kept.symm.trans (second.directories _ (first.directories _ there))

/-- A state can be removed from where it could be written to. -/
theorem clear (writable : w.files.Writable path) : ∃ w', Store.clear path w = .ok () w' ∧ w'.heap = w.heap := by
  have free := writable.free
  cases present : w.files.exists? path with
  | false =>
    refine ⟨w, ?_, rfl⟩
    simp only [Store.clear, Bind.bind, EStateM.bind, Script.get_result, present, Bool.false_eq_true, if_false]
    rfl
  | true =>
    have found : ∃ text, w.files.read path = .ok text := by
      unfold exists? node? at present
      split at present
      · next place located =>
        cases locate_place located
        cases there : w.files.find? (w.files.placeOf path) with
        | none =>
          rw [there] at present
          cases present
        | some n =>
          cases n with
          | file text => exact ⟨text, read_of_find? located there⟩
          | directory => exact absurd there free
      · cases present
    obtain ⟨text, found⟩ := found
    have removed : Job.onFiles (fun t => t.remove path) w = .ok () { w with files := w.files.erase (w.files.placeOf path) } := by
      simp only [Job.onFiles, remove_of_read found]
    refine ⟨{ w with files := w.files.erase (w.files.placeOf path), journal := w.journal.push (.logged
      { logger := Store.logger, level := .debug, message := s!"Removed execution state {path.text}" }) }, ?_, rfl⟩
    have present : Store.clear path w = (do
        Job.onFiles (fun t => t.remove path)
        Job.log .debug Store.logger s!"Removed execution state {path.text}") w := by
      simp only [Store.clear, Bind.bind, EStateM.bind, Script.get_result, present, if_true]
    rw [present]
    exact Work.ok_bind removed

end Writable

end FileTree

end Workflow
