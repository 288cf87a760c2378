import Workflow.Files.Tree
import Workflow.Proofs.Fallible

/-! Changes of files. An operation leaves every directory where it is, and all files but those at the places of
the paths that it is given. -/

namespace Workflow.FileTree
open Fallible
open Script (ErrorClass)

variable {t t' : FileTree} {place other : List String} {n : Node} {p source target : FilePath} {text : String}

/-! What lies where. -/

theorem find?_inner (t : FileTree) (inner : place ≠ []) :
    t.find? place = (t.entries.find? (·.1 == place)).map (·.2) := by
  rw [find?, if_neg (by simpa using inner)]

theorem find?_put_self (t : FileTree) (n : Node) (inner : place ≠ []) : (t.put place n).find? place = some n := by
  rw [find?_inner _ inner, put]
  split
  · next taken =>
    obtain ⟨entry, member, same⟩ := List.any_eq_true.mp taken
    rw [List.find?_map, Option.map_map]
    have still : (fun entry : List String × Node => entry.1 == place) ∘
        (fun entry => if entry.1 == place then (place, n) else entry) = (fun entry => entry.1 == place) := by
      funext entry
      by_cases here : entry.1 = place <;> simp [here]
    rw [still]
    cases found : t.entries.find? (·.1 == place) with
    | none => exact absurd same (List.find?_eq_none.mp found entry member)
    | some entry =>
      have same := List.find?_some found
      simp only [Option.map_some, Function.comp_apply, if_pos same]
  · next free =>
    have none : t.entries.find? (·.1 == place) = none := by
      refine List.find?_eq_none.mpr (fun entry member same => free ?_)
      exact List.any_eq_true.mpr ⟨entry, member, same⟩
    simp [List.find?_append, none]

theorem find?_put_other (t : FileTree) (n : Node) (apart : other ≠ place) : (t.put place n).find? other = t.find? other := by
  by_cases root : other = []
  · rw [root]
    rfl
  rw [find?_inner _ root, find?_inner _ root, put]
  split
  · rw [List.find?_map, Option.map_map]
    have still : (fun entry : List String × Node => entry.1 == other) ∘
        (fun entry => if entry.1 == place then (place, n) else entry) = (fun entry => entry.1 == other) := by
      funext entry
      by_cases here : entry.1 = place
      · simp [here]
      · simp [here]
    rw [still]
    cases found : t.entries.find? (·.1 == other) with
    | none => rfl
    | some entry =>
      have there : entry.1 = other := by simpa using List.find?_some found
      have elsewhere : (entry.1 == place) = false := by simpa [there] using apart
      simp only [Option.map_some, Function.comp_apply, elsewhere]
      rfl
  · have elsewhere : (place == other) = false := by simpa using apart.symm
    simp [List.find?_append, elsewhere]

theorem find?_erase_self (t : FileTree) (inner : place ≠ []) : (t.erase place).find? place = none := by
  rw [find?_inner _ inner, erase, List.find?_filter]
  simp

theorem find?_erase_other (t : FileTree) (apart : other ≠ place) : (t.erase place).find? other = t.find? other := by
  by_cases root : other = []
  · rw [root]
    rfl
  rw [find?_inner _ root, find?_inner _ root, erase, List.find?_filter]
  congr 2
  funext entry
  by_cases here : entry.1 = other
  · simp [here, apart]
  · simp [here]

/-- The text of the file at a place, if there is one. -/
def textAt (t : FileTree) (place : List String) : Option String :=
  match t.find? place with
  | some (.file text) => some text
  | _ => none

/-! Where a path leads to. -/

def enter (place : List String) (part : String) : List String := if part == ".." then place.dropLast else place ++ [part]

/-- A part that is no step upwards leads elsewhere than every other part. -/
theorem enter_apart {part part' : String} (down : part ≠ "..") (apart : part ≠ part') : enter place part ≠ enter place part' := by
  intro same
  rw [enter, if_neg (by simpa using down), enter] at same
  split at same
  · have lengths := congrArg List.length same
    rw [List.length_append, List.length_dropLast, List.length_singleton] at lengths
    omega
  · exact apart (List.append_singleton_inj.mp same).2

/-- The place that a path leads to, if every place on the way is a directory. -/
def placeOf (t : FileTree) (p : FilePath) : List String := p.parts.foldl enter (if p.isAbsolute then [] else t.home)

theorem placeOf_child (t : FileTree) (isAbsolute : Bool) (parts : List String) (part : String) :
    t.placeOf ⟨isAbsolute, parts ++ [part]⟩ = enter (t.placeOf ⟨isAbsolute, parts⟩) part := by
  rw [placeOf, List.foldl_append]
  rfl

/-- A path that never steps upwards leads to a place of as many parts further inside. -/
theorem placeOf_straight (t : FileTree) (straight : ".." ∉ p.parts) :
    t.placeOf p = (if p.isAbsolute then [] else t.home) ++ p.parts := by
  rw [placeOf]
  generalize (if p.isAbsolute then [] else t.home) = start
  generalize p.parts = parts at straight
  induction parts generalizing start with
  | nil => rw [List.foldl_nil, List.append_nil]
  | cons part rest ih =>
    rw [List.mem_cons, not_or] at straight
    obtain ⟨down, further⟩ := straight
    rw [List.foldl_cons, ih _ further, enter, if_neg (by simpa using Ne.symm down), List.append_assoc, List.singleton_append]

theorem follow_place {start : List String} {parts : List String} (followed : t.follow start parts = .ok place) :
    place = parts.foldl enter start := by
  induction parts generalizing start with
  | nil =>
    cases followed
    rfl
  | cons part rest ih =>
    rw [follow] at followed
    split at followed
    · rw [List.foldl_cons, enter]
      split at followed
      · next up => rw [if_pos up]; exact ih followed
      · next down => rw [if_neg down]; exact ih followed
    · cases followed
    · cases followed

theorem locate_place (located : t.locate p = .ok place) : place = t.placeOf p := follow_place located

/-- A tree comes from another one by changes of the files at some places. New directories may be there as well. -/
structure Changes (places : List String → Prop) (t t' : FileTree) : Prop where
  home : t'.home = t.home
  directories : ∀ dir, t.find? dir = some .directory → t'.find? dir = some .directory
  texts : ∀ place, ¬ places place → t'.textAt place = t.textAt place

namespace Changes
variable {places others : List String → Prop} {t'' : FileTree}

theorem refl (t : FileTree) : Changes places t t := ⟨rfl, fun _ there => there, fun _ _ => rfl⟩

theorem trans (first : Changes places t t') (second : Changes places t' t'') : Changes places t t'' where
  home := second.home.trans first.home
  directories dir there := second.directories dir (first.directories dir there)
  texts place other := (second.texts place other).trans (first.texts place other)

theorem mono (changes : Changes places t t') (covers : ∀ place, places place → others place) : Changes others t t' where
  home := changes.home
  directories := changes.directories
  texts place other := changes.texts place (fun inside => other (covers place inside))

theorem placeOf (changes : Changes places t t') (p : FilePath) : t'.placeOf p = t.placeOf p := by
  rw [FileTree.placeOf, FileTree.placeOf, changes.home]

theorem follow (changes : Changes places t t') {start parts : List String} (followed : t.follow start parts = .ok place) :
    t'.follow start parts = .ok place := by
  induction parts generalizing start with
  | nil => exact followed
  | cons part rest ih =>
    rw [FileTree.follow] at followed ⊢
    split at followed
    · next there =>
      rw [changes.directories _ there]
      dsimp only
      split at followed
      · next up => rw [if_pos up]; exact ih followed
      · next down => rw [if_neg down]; exact ih followed
    · cases followed
    · cases followed

/-- A path leads where it led before. -/
theorem locate (changes : Changes places t t') (located : t.locate p = .ok place) : t'.locate p = .ok place := by
  rw [FileTree.locate, changes.home]
  exact changes.follow located

end Changes

theorem inner_of_not_directory (other : t.find? place ≠ some .directory) : place ≠ [] := by
  rintro rfl
  exact other rfl

theorem put_changes (n : Node) (other : t.find? place ≠ some .directory) : Changes (· = place) t (t.put place n) where
  home := by
    rw [put]
    split <;> rfl
  directories dir there := by
    have apart : dir ≠ place := by
      rintro rfl
      exact other there
    rw [find?_put_other t n apart]
    exact there
  texts dir apart := by rw [textAt, textAt, find?_put_other t n apart]

theorem erase_changes (other : t.find? place ≠ some .directory) : Changes (· = place) t (t.erase place) where
  home := rfl
  directories dir there := by
    have apart : dir ≠ place := by
      rintro rfl
      exact other there
    rw [find?_erase_other t apart]
    exact there
  texts dir apart := by rw [textAt, textAt, find?_erase_other t apart]

/-! The operations. -/

theorem read_ok (found : t.read p = .ok text) : t.locate p = .ok (t.placeOf p) ∧ t.find? (t.placeOf p) = some (.file text) := by
  obtain ⟨place, located, found⟩ := bind_ok found
  cases locate_place located
  refine ⟨located, ?_⟩
  split at found
  · next there =>
    cases found
    exact there
  · cases found
  · cases found

theorem read_of_find? (located : t.locate p = .ok place) (there : t.find? place = some (.file text)) :
    t.read p = .ok text := by
  simp only [read, located, Bind.bind, Except.bind, there]

/-- A file that can be read is there, and it can be removed. -/
theorem exists?_of_read (found : t.read p = .ok text) : t.exists? p = true := by
  obtain ⟨located, there⟩ := read_ok found
  simp only [exists?, node?, located, there, Option.isSome_some]

theorem remove_of_read (found : t.read p = .ok text) : t.remove p = .ok (t.erase (t.placeOf p)) := by
  obtain ⟨located, there⟩ := read_ok found
  simp only [remove, located, Bind.bind, Except.bind, there]

theorem write_ok (written : t.write p text = .ok t') :
    t.locate p = .ok (t.placeOf p) ∧ t.find? (t.placeOf p) ≠ some .directory ∧ t' = t.put (t.placeOf p) (.file text) := by
  obtain ⟨place, located, written⟩ := bind_ok written
  cases locate_place located
  refine ⟨located, ?_⟩
  split at written
  · cases written
  · next other =>
    cases written
    exact ⟨other, rfl⟩

theorem write_changes (written : t.write p text = .ok t') : Changes (· = t.placeOf p) t t' := by
  obtain ⟨-, other, rfl⟩ := write_ok written
  exact put_changes _ other

theorem read_written (written : t.write p text = .ok t') : t'.read p = .ok text := by
  obtain ⟨located, other, rfl⟩ := write_ok written
  exact read_of_find? ((put_changes _ other).locate located) (find?_put_self t _ (inner_of_not_directory other))

theorem remove_ok (removed : t.remove p = .ok t') :
    ∃ text, t.read p = .ok text ∧ t' = t.erase (t.placeOf p) := by
  obtain ⟨place, located, removed⟩ := bind_ok removed
  cases locate_place located
  split at removed
  · next text there =>
    cases removed
    exact ⟨text, read_of_find? located there, rfl⟩
  · cases removed
  · cases removed

theorem remove_changes (removed : t.remove p = .ok t') : Changes (· = t.placeOf p) t t' := by
  obtain ⟨text, found, rfl⟩ := remove_ok removed
  exact erase_changes (by rw [(read_ok found).2]; nofun)

theorem exists?_removed (removed : t.remove p = .ok t') : t'.exists? p = false := by
  have changes := remove_changes removed
  obtain ⟨text, found, rfl⟩ := remove_ok removed
  obtain ⟨located, there⟩ := read_ok found
  have inner : t.placeOf p ≠ [] := inner_of_not_directory (by rw [there]; nofun)
  simp only [exists?, node?, changes.locate located, find?_erase_self t inner, Option.isSome_none]

/-- What a move has to find: a file, and a target that is named and is no directory. -/
theorem move_ok (moved : t.move source target = .ok t') :
    ∃ text, t.read source = .ok text ∧ t.locate target = .ok (t.placeOf target) ∧
      t.find? (t.placeOf target) ≠ some .directory ∧
      t' = if t.placeOf source = t.placeOf target then t
        else (t.erase (t.placeOf source)).put (t.placeOf target) (.file text) := by
  unfold move at moved
  split at moved
  · cases moved
  obtain ⟨text, found, moved⟩ := bind_ok moved
  obtain ⟨start, started, moved⟩ := bind_ok moved
  obtain ⟨goal, located, moved⟩ := bind_ok moved
  cases locate_place started
  cases locate_place located
  refine ⟨text, found, located, ?_⟩
  split at moved
  · cases moved
  · next other =>
    cases moved
    refine ⟨other, ?_⟩
    by_cases same : t.placeOf source = t.placeOf target
    · rw [if_pos same, if_pos (beq_iff_eq.mpr same)]
    · rw [if_neg same, if_neg (fun still => same (beq_iff_eq.mp still))]

/-- A file that is moved is at its target afterwards. -/
theorem read_moved (moved : t.move source target = .ok t') (found : t.read source = .ok text) : t'.read target = .ok text := by
  obtain ⟨text', found', located, other, rfl⟩ := move_ok moved
  cases found.symm.trans found'
  split
  · next same => exact read_of_find? located (same ▸ (read_ok found).2)
  · next apart =>
    have first : Changes (· = t.placeOf source) t (t.erase (t.placeOf source)) :=
      erase_changes (by rw [(read_ok found).2]; nofun)
    have free : (t.erase (t.placeOf source)).find? (t.placeOf target) ≠ some .directory := by
      rwa [find?_erase_other t (Ne.symm apart)]
    exact read_of_find? ((put_changes _ free).locate (first.locate located))
      (find?_put_self _ _ (inner_of_not_directory free))

/-- A file that is moved elsewhere is no longer where it was, and nothing else changes. -/
theorem move_elsewhere (moved : t.move source target = .ok t') (apart : t.placeOf source ≠ t.placeOf target) :
    t'.exists? source = false ∧
      ∀ place, place ≠ t.placeOf target → place ≠ t.placeOf source → t'.find? place = t.find? place := by
  obtain ⟨text, found, -, other, rfl⟩ := move_ok moved
  obtain ⟨-, there⟩ := read_ok found
  have first := erase_changes (by rw [there]; nofun)
  have second := put_changes (.file text) ((find?_erase_other t apart.symm).symm ▸ other)
  rw [if_neg apart]
  refine ⟨?_, fun place target source => by rw [find?_put_other _ _ target, find?_erase_other t source]⟩
  rw [exists?, node?]
  split
  · next place located =>
    cases locate_place located
    rw [second.placeOf, first.placeOf, find?_put_other _ _ apart,
      find?_erase_self t (inner_of_not_directory (by rw [there]; nofun)), Option.isSome_none]
  · rfl

/-- A file can be moved to where it is. -/
theorem move_self (found : t.read p = .ok text) (named : p.parts.getLast? ≠ some "..") : t.move p p = .ok t := by
  obtain ⟨located, there⟩ := read_ok found
  have named : (p.parts.getLast? == some "..") = false := by simpa using named
  simp [move, named, found, located, there, Bind.bind, Except.bind]

/-- A tree comes from another one by new directories at some places. -/
structure Made (places : List String → Prop) (t t' : FileTree) : Prop where
  home : t'.home = t.home
  finds : ∀ place, t'.find? place = t.find? place ∨
    (t.find? place = none ∧ t'.find? place = some .directory ∧ places place)

namespace Made
variable {places others : List String → Prop} {t'' : FileTree}

theorem refl (t : FileTree) : Made places t t := ⟨rfl, fun _ => .inl rfl⟩

theorem trans (first : Made places t t') (second : Made places t' t'') : Made places t t'' where
  home := second.home.trans first.home
  finds place := by
    obtain same | ⟨free, there, inside⟩ := second.finds place
    · rw [same]
      exact first.finds place
    · obtain before | ⟨-, taken, -⟩ := first.finds place
      · exact .inr ⟨before ▸ free, there, inside⟩
      · rw [taken] at free
        cases free

theorem mono (made : Made places t t') (covers : ∀ place, places place → others place) : Made others t t' where
  home := made.home
  finds place := (made.finds place).imp_right (fun ⟨free, there, inside⟩ => ⟨free, there, covers place inside⟩)

theorem placeOf (made : Made places t t') (p : FilePath) : t'.placeOf p = t.placeOf p := by
  rw [FileTree.placeOf, FileTree.placeOf, made.home]

theorem changes (made : Made places t t') : Changes (fun _ => False) t t' where
  home := made.home
  directories dir there := by
    obtain same | ⟨free, -⟩ := made.finds dir
    · rwa [same]
    · rw [free] at there
      cases there
  texts place _ := by
    obtain same | ⟨free, there, -⟩ := made.finds place
    · rw [textAt, textAt, same]
    · rw [textAt, textAt, free, there]

end Made

/-- The places that a path leads to or through. -/
def Passes (t : FileTree) (p : FilePath) (place : List String) : Prop :=
  ∃ parts, parts <+: p.parts ∧ place = t.placeOf ⟨p.isAbsolute, parts⟩

theorem makeDirectory_made (made : t.makeDirectory p = .ok t') : Made (t.Passes p) t t' := by
  obtain ⟨place, located, made⟩ := bind_ok made
  split at made
  · cases made
  · next free =>
    cases made
    have absent : t.find? place ≠ some .directory := by
      rw [free]
      nofun
    refine ⟨(put_changes .directory absent).home, fun dir => ?_⟩
    by_cases here : dir = place
    · subst here
      exact .inr ⟨free, find?_put_self t _ (inner_of_not_directory absent), p.parts, List.prefix_rfl,
        locate_place located⟩
    · exact .inl (find?_put_other t _ here)

/-- Making directories makes nothing else, and only on the way of their path, whether it succeeds or not. -/
theorem makeDirectories_made (t : FileTree) (depth : Nat) (p : FilePath) :
    Made (t.Passes p) t (t.makeDirectories depth p).2 := by
  induction depth generalizing p with
  | zero => exact .refl t
  | succ depth ih =>
    rw [makeDirectories]
    split
    · next first => exact makeDirectory_made first
    · split
      · exact .refl t
      have outer : Made (t.Passes p) t (t.makeDirectories depth p.parent).2 :=
        (ih p.parent).mono (fun _ ⟨parts, before, here⟩ => ⟨parts, before.trans (List.dropLast_prefix _), here⟩)
      split
      · next around =>
        rw [around] at outer
        exact outer
      · next t₁ around =>
        rw [around] at outer
        split
        · next last =>
          refine outer.trans ((makeDirectory_made last).mono ?_)
          rintro _ ⟨parts, before, rfl⟩
          exact ⟨parts, before, outer.placeOf _⟩
        · exact outer
    · exact .refl t

end Workflow.FileTree

namespace Workflow.FilePath

theorem nameWithEnding_length (name ending : String) : ending.length ≤ (nameWithEnding name ending).length := by
  rw [nameWithEnding, String.length_append]
  omega

/-- A path that has no name has no other ending, and otherwise only the name is another one. -/
theorem withEnding?_made {p temporary : FilePath} {ending : String} (made : p.withEnding? ending = some temporary) :
    ∃ outer name, p.parts = outer ++ [name] ∧ temporary = { p with parts := outer ++ [nameWithEnding name ending] } := by
  unfold withEnding? at made
  split at made
  · cases made
  next name last =>
  obtain ⟨outer, parts⟩ := List.getLast?_eq_some_iff.mp last
  cases made
  exact ⟨outer, name, parts, by rw [parts, List.dropLast_concat]⟩

/-- A path with another ending is the path itself, or leads to another place. -/
theorem withEnding?_apart {p temporary : FilePath} (t : FileTree) (made : p.withEnding? ".tmp" = some temporary) :
    temporary.parts.getLast? ≠ some ".." ∧ (temporary = p ∨ t.placeOf temporary ≠ t.placeOf p) := by
  obtain ⟨outer, name, parts, rfl⟩ := withEnding?_made made
  obtain ⟨isAbsolute, _⟩ := p
  subst parts
  have down : nameWithEnding name ".tmp" ≠ ".." := by
    intro same
    have long := nameWithEnding_length name ".tmp"
    rw [same] at long
    exact absurd long (by decide)
  refine ⟨by simpa using down, ?_⟩
  by_cases same : nameWithEnding name ".tmp" = name
  · exact .inl (by rw [same])
  · refine .inr ?_
    rw [t.placeOf_child, t.placeOf_child]
    exact FileTree.enter_apart down same

end Workflow.FilePath
