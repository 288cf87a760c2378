import Workflow.Proofs.Files
import Workflow.Proofs.Halts
import Workflow.Proofs.Quiet

/-! The file of a stored state. A snapshot that is saved can be read afterwards, and a state that is cleared is gone.
Saving that fails leaves the file as it was, at whatever point it fails. -/

namespace Workflow
open Script (Act Heap Value)
open Engine (Work)

namespace Store

variable {path temporary : FilePath} {text : String} {w w' : World} {fault : Fault}

/-- Some work changes no files but those at some places, and it may make directories. -/
def Keeps (places : List String → Prop) (w w' : World) : Prop := FileTree.Changes places w.files w'.files

theorem Keeps.refl {places : List String → Prop} (w : World) : Keeps places w w := FileTree.Changes.refl _

theorem Keeps.quietly {places : List String → Prop} {w₁ : World} (keeps : Keeps places w w₁) (quiet : Quiet w₁ w') :
    Keeps places w w' := by
  rw [Keeps, quiet.1]
  exact keeps

theorem onFiles_ok {change : FileTree → Except Script.ErrorClass FileTree} {u : Unit}
    (ran : Job.onFiles change w = .ok u w') : ∃ t, change w.files = .ok t ∧ w' = { w with files := t } := by
  unfold Job.onFiles at ran
  split at ran
  · next t changed =>
    cases ran
    exact ⟨t, changed, rfl⟩
  · cases ran

/-- Making the directories around a file changes nothing but the files, whether it succeeds or not. -/
theorem makeAround_ok {u : Unit} (ran : makeAround path w = .ok u w') :
    ∃ t, FileTree.Made (w.files.Passes path.parent) w.files t ∧ w' = { w with files := t } := by
  have made := w.files.makeDirectories_made (path.parts.length + 1) path.parent
  unfold makeAround at ran
  split at ran
  · next files found =>
    cases ran
    rw [found] at made
    exact ⟨files, made, rfl⟩
  · cases ran

theorem makeAround_error (failed : makeAround path w = .error fault w') :
    ∃ t, FileTree.Made (w.files.Passes path.parent) w.files t ∧ w' = { w with files := t } := by
  have made := w.files.makeDirectories_made (path.parts.length + 1) path.parent
  unfold makeAround at failed
  split at failed
  · cases failed
  · next files found =>
    cases failed
    rw [found] at made
    exact ⟨files, made, rfl⟩

theorem onFiles_error {change : FileTree → Except Script.ErrorClass FileTree} (ran : Job.onFiles change w = .error fault w') :
    w' = w := by
  unfold Job.onFiles at ran
  split at ran
  · cases ran
  · cases ran
    rfl

/-! Clearing. -/

theorem clear_ok {u : Unit} (cleared : clear path w = .ok u w') :
    w'.files.exists? path = false ∧ w'.heap = w.heap ∧ w'.lines = w.lines := by
  simp only [clear, Bind.bind, EStateM.bind, Script.get_result] at cleared
  split at cleared
  · obtain ⟨_, w₁, removed, logged⟩ := Work.bind_ok cleared
    obtain ⟨t, erased, rfl⟩ := onFiles_ok removed
    cases logged
    exact ⟨FileTree.exists?_removed erased, rfl, World.lines_logged _ _⟩
  · next missing =>
    cases cleared
    exact ⟨by simpa using missing, rfl, rfl⟩

theorem clear_error (failed : clear path w = .error fault w') : w'.files = w.files := by
  simp only [clear, Bind.bind, EStateM.bind, Script.get_result] at failed
  split at failed
  · obtain failed | ⟨_, w₁, removed, logged⟩ := Work.bind_error failed
    · rw [onFiles_error failed]
    · cases logged
  · cases failed

/-! Replacing. -/

/-- A file is written and moved. -/
def moved (files : FileTree) (path temporary : FilePath) (text : String) : Except Script.ErrorClass FileTree := do
  (← files.write temporary text).move temporary path

theorem read_of_moved {files t : FileTree} (done : moved t path temporary text = .ok files) : files.read path = .ok text := by
  obtain ⟨t, written, moved⟩ := Fallible.bind_ok done
  exact FileTree.read_moved moved (FileTree.read_written written)

theorem replace_of_moved {files : FileTree} (done : moved w.files path temporary text = .ok files) :
    replace path temporary text w = .ok () { w with files } := by
  unfold moved at done
  simp only [replace, done]

/-- A replacement that fails leaves the files as they were, but for its temporary file, which it has removed. -/
theorem replace_of_unmoved {category : Script.ErrorClass} (undone : moved w.files path temporary text = .error category) :
    ∃ fault files, replace path temporary text w = .error fault { w with files } ∧
      (files = w.files ∨ ∃ written, w.files.write temporary text = .ok written ∧ written.remove temporary = .ok files) := by
  unfold moved at undone
  simp only [replace, undone]
  cases written : w.files.write temporary text with
  | error =>
    dsimp only
    split
    · split
      · next removed =>
        obtain ⟨text', found, -⟩ := FileTree.remove_ok removed
        obtain ⟨located, there⟩ := FileTree.read_ok found
        simp [FileTree.write, located, there, Bind.bind, Except.bind] at written
      · exact ⟨_, _, rfl, .inl rfl⟩
    · exact ⟨_, _, rfl, .inl rfl⟩
  | ok t =>
    have found := FileTree.read_written written
    have removed := FileTree.remove_of_read found
    simp only [FileTree.exists?_of_read found, removed, if_true]
    exact ⟨_, _, rfl, .inr ⟨t, rfl, removed⟩⟩

theorem replace_ok {u : Unit} (replaced : replace path temporary text w = .ok u w') :
    ∃ files, moved w.files path temporary text = .ok files ∧ w' = { w with files } := by
  cases done : moved w.files path temporary text with
  | ok files =>
    rw [replace_of_moved done] at replaced
    cases replaced
    exact ⟨files, rfl, rfl⟩
  | error category =>
    obtain ⟨fault, files, failed, -⟩ := replace_of_unmoved done
    rw [failed] at replaced
    cases replaced

/-- Replacing that fails leaves all files as they were, or it has written its temporary file, which lies elsewhere, and
removed it again. -/
theorem replace_error (made : path.withEnding? ".tmp" = some temporary)
    (failed : replace path temporary text w = .error fault w') :
    w'.files = w.files ∨ ∃ written, w.files.write temporary text = .ok written ∧
      written.remove temporary = .ok w'.files ∧ w.files.placeOf temporary ≠ w.files.placeOf path := by
  cases done : moved w.files path temporary text with
  | ok files =>
    rw [replace_of_moved done] at failed
    cases failed
  | error category =>
    obtain ⟨fault', files, ran, left⟩ := replace_of_unmoved done
    rw [ran] at failed
    cases failed
    obtain rfl | ⟨t, written, removed⟩ := left
    · exact .inl rfl
    obtain ⟨named, rfl | apart⟩ := FilePath.withEnding?_apart w.files made
    · -- The temporary file is the file itself, and to move it there is nothing that can fail.
      have stays := FileTree.move_self (FileTree.read_written written) named
      simp [moved, written, stays, Bind.bind, Except.bind] at done
    · exact .inr ⟨t, written, removed, apart⟩

/-! Saving. -/

theorem textOf_ok {schema snapshot : Value} (told : textOf schema snapshot w = .ok text w') :
    w' = w ∧ ∃ j, snapshot.data w.heap = .ok j ∧ text = j.pretty := by
  simp only [textOf, Bind.bind, EStateM.bind, Script.get_result] at told
  cases data : snapshot.data w.heap with
  | ok j =>
    rw [data] at told
    cases told
    exact ⟨rfl, j, rfl, rfl⟩
  | error fault =>
    rw [data] at told
    cases fault with
    | tooDeep => cases told
    | _ =>
      obtain ⟨_, _, -, refused⟩ := Work.bind_ok told
      cases refused

/-- The steps of a snapshot that is saved. -/
theorem save_steps {r : Result} {v : Value} (saved : save path r w = .ok v w') :
    ∃ h j t temporary files note, r.snapshot w.heap = .ok v h ∧ v.data h = .ok j ∧
      FileTree.Made (w.files.Passes path.parent) w.files t ∧ path.withEnding? ".tmp" = some temporary ∧
      moved t path temporary j.pretty = .ok files ∧
      w' = { w with heap := h, files, journal := w.journal.push (.logged note) } := by
  obtain ⟨v', w₁, taken, saved⟩ := Work.bind_ok saved
  obtain ⟨text, w₂, told, saved⟩ := Work.bind_ok saved
  obtain ⟨_, w₃, around, saved⟩ := Work.bind_ok saved
  obtain ⟨h, snapshot, rfl⟩ := Job.act_ok taken
  obtain ⟨rfl, j, data, rfl⟩ := textOf_ok told
  obtain ⟨t, made, rfl⟩ := makeAround_ok around
  dsimp only at saved
  cases named : path.withEnding? ".tmp" with
  | none =>
    rw [named] at saved
    obtain ⟨_, _, stopped, -⟩ := Work.bind_ok saved
    cases stopped
  | some temporary =>
    rw [named] at saved
    obtain ⟨_, w₄, replaced, saved⟩ := Work.bind_ok saved
    obtain ⟨files, done, rfl⟩ := replace_ok replaced
    cases saved
    exact ⟨h, j, t, temporary, files, _, snapshot, data, made, rfl, done, rfl⟩

/-- What is saved is the data of the snapshot, and that is all that has changed. -/
theorem save_ok {r : Result} {v : Value} (saved : save path r w = .ok v w') :
    ∃ h j files note, r.snapshot w.heap = .ok v h ∧ v.data h = .ok j ∧ files.read path = .ok j.pretty ∧
      w' = { w with heap := h, files, journal := w.journal.push (.logged note) } := by
  obtain ⟨h, j, t, temporary, files, note, snapshot, data, -, -, done, rfl⟩ := save_steps saved
  exact ⟨h, j, files, note, snapshot, data, read_of_moved done, rfl⟩

/-- Saving that fails has made directories on the way to the file at most, or it has failed with its temporary file. -/
theorem save_stops {r : Result} (failed : save path r w = .error fault w') :
    ∃ t, FileTree.Made (w.files.Passes path.parent) w.files t ∧
      (w'.files = t ∨ ∃ temporary text written, path.withEnding? ".tmp" = some temporary ∧
        t.write temporary text = .ok written ∧ written.remove temporary = .ok w'.files ∧
        t.placeOf temporary ≠ t.placeOf path) := by
  have start : FileTree.Made (w.files.Passes path.parent) w.files w.files := .refl _
  obtain failed | ⟨v, w₁, taken, failed⟩ := Work.bind_error failed
  · exact ⟨w.files, start, .inl ((Quiet.patient.act _).error failed).1⟩
  have first := ((Quiet.patient.act _).ok taken).1
  obtain failed | ⟨text, w₂, told, failed⟩ := Work.bind_error failed
  · exact ⟨w.files, start, .inl (((Quiet.patient.textOf _ _).error failed).1.trans first)⟩
  rw [(textOf_ok told).1] at failed
  obtain failed | ⟨_, w₃, around, failed⟩ := Work.bind_error failed
  · obtain ⟨t, made, rfl⟩ := makeAround_error failed
    exact ⟨t, first ▸ made, .inl rfl⟩
  obtain ⟨t, made, rfl⟩ := makeAround_ok around
  rw [first] at made
  refine ⟨t, made, ?_⟩
  dsimp only at failed
  cases named : path.withEnding? ".tmp" with
  | none =>
    rw [named] at failed
    obtain failed | ⟨_, _, stopped, -⟩ := Work.bind_error failed
    · exact .inl ((Quiet.patient.act _).error failed).1
    · cases stopped
  | some temporary =>
    rw [named] at failed
    obtain failed | ⟨_, w₄, replaced, noted⟩ := Work.bind_error failed
    · exact (replace_error named failed).imp_right (fun ⟨written, wrote, removed, apart⟩ =>
        ⟨temporary, _, written, rfl, wrote, removed, apart⟩)
    · cases noted

/-- Saving that fails leaves the file as it was. -/
theorem save_error {r : Result} (failed : save path r w = .error fault w') : Keeps (· ≠ w.files.placeOf path) w w' := by
  obtain ⟨t, made, same | ⟨temporary, text, written, -, wrote, removed, apart⟩⟩ := save_stops failed
  · rw [Keeps, same]
    exact made.changes.mono (fun _ => False.elim)
  · have first := FileTree.write_changes wrote
    have second := FileTree.remove_changes removed
    rw [first.placeOf] at second
    rw [made.placeOf path] at apart
    exact (made.changes.mono (fun _ => False.elim)).trans ((first.trans second).mono (fun place here => here ▸ apart))

end Store

end Workflow
