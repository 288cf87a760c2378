import Workflow.Proofs.PathTexts
import Workflow.Schema.Walk

/-! Paths as addresses. A walk through a schema meets whatever it looks for once and in the order of the tree, and the text
of each path leads to what was met there and to nothing else. -/

namespace Workflow

/-- What a path may lead to. -/
inductive Target where
  | row (items : List Item)
  | item (i : Item)
  | condition (c : Condition)

namespace Target

/-- What lies one way down. -/
def child? : Target → Place → Option Target
  | .row items, .item index => items[index]?.map .item
  | .item (.step _ _ gate), .gate => gate.map .condition
  | .item (.block _ gate), .gate => gate.map .condition
  | .item (.block items _), .steps => some (.row items)
  | .item (.loop _ _ gate), .gate => gate.map .condition
  | .item (.loop test _ _), .test => some (.condition test)
  | .item (.loop _ items _), .steps => some (.row items)
  | .item (.marker signal test), .marker other => if other = signal then some (.condition test) else none
  | _, _ => none

/-- What a path leads to. -/
def follow : Target → Path → Option Target
  | t, [] => some t
  | t, place :: deeper => (t.child? place).bind (fun u => u.follow deeper)

/-- A step is told by its id, which is all that a walk keeps of it. -/
def stepId? : Target → Option String
  | .item (.step id _ _) => some id
  | _ => none

def condition? : Target → Option Condition
  | .condition c => some c
  | _ => none

end Target

/-- The order of the items of a row, and of the parts of an item. -/
inductive Place.Before : Place → Place → Prop
  | items {index later : Nat} (less : index < later) : Before (.item index) (.item later)
  | gateTest : Before .gate .test
  | gateSteps : Before .gate .steps
  | testSteps : Before .test .steps

/-- The order of a tree. It is decided where two ways down part. -/
abbrev Path.Before : Path → Path → Prop := List.Lex Place.Before

theorem Place.before_irrefl (place : Place) : ¬place.Before place := by
  intro before
  cases before with
  | items less => exact Nat.lt_irrefl _ less

/-! What is told along paths, and the entries for all of it. -/

section
variable {α : Type}

/-- What is told one way down. -/
def Under (place : Place) (told : Path → α → Prop) (path : Path) (a : α) : Prop :=
  ∃ deeper, path = place :: deeper ∧ told deeper a

/-- Some entries are all that is told, in the order of the tree. -/
structure Enumerates (told : Path → α → Prop) (found : List (Path × α)) : Prop where
  complete : ∀ path a, (path, a) ∈ found ↔ told path a
  ordered : found.Pairwise (fun e later => e.1.Before later.1)

end

/-- Whatever is told under one place stands before what is told under a later one. -/
theorem under_before {α β : Type} {told : Path → α → Prop} {told' : Path → β → Prop} {place place' : Place}
    (first : place.Before place') {path later : Path} {a : α} {b : β} (under : Under place told path a)
    (under' : Under place' told' later b) : path.Before later := by
  obtain ⟨_, rfl, -⟩ := under
  obtain ⟨_, rfl, -⟩ := under'
  exact .rel first

namespace Enumerates
variable {α : Type} {told told' : Path → α → Prop} {found found' : List (Path × α)}

theorem of_iff (enumerates : Enumerates told found) (same : ∀ path a, told' path a ↔ told path a) : Enumerates told' found :=
  ⟨fun path a => (enumerates.complete path a).trans (same path a).symm, enumerates.ordered⟩

theorem nothing (silent : ∀ path a, ¬told path a) : Enumerates told [] := by
  refine ⟨fun path a => ?_, .nil⟩
  constructor
  · intro member
    cases member
  · intro tells
    exact absurd tells (silent path a)

theorem single {path : Path} {a : α} : Enumerates (fun other b => other = path ∧ b = a) [(path, a)] :=
  ⟨fun other b => by rw [List.mem_singleton, Prod.mk.injEq], List.pairwise_singleton _ _⟩

theorem below (place : Place) (enumerates : Enumerates told found) : Enumerates (Under place told) (below [place] found) := by
  constructor
  · intro path a
    constructor
    · intro member
      obtain ⟨⟨deeper, b⟩, inside, same⟩ := List.mem_map.mp member
      cases same
      exact ⟨deeper, rfl, (enumerates.complete _ _).mp inside⟩
    · rintro ⟨deeper, rfl, tells⟩
      exact List.mem_map.mpr ⟨(deeper, a), (enumerates.complete _ _).mpr tells, rfl⟩
  · exact enumerates.ordered.map _ (fun _ _ before => .cons before)

theorem append (enumerates : Enumerates told found) (enumerates' : Enumerates told' found')
    (before : ∀ path a later b, told path a → told' later b → path.Before later) :
    Enumerates (fun path a => told path a ∨ told' path a) (found ++ found') := by
  constructor
  · intro path a
    rw [List.mem_append, enumerates.complete, enumerates'.complete]
  · apply List.pairwise_append.mpr
    refine ⟨enumerates.ordered, enumerates'.ordered, ?_⟩
    rintro ⟨path, a⟩ member ⟨later, b⟩ member'
    exact before path a later b ((enumerates.complete _ _).mp member) ((enumerates'.complete _ _).mp member')

end Enumerates

namespace Target
variable {α : Type} {tells : Target → Option α} {path : Path} {a : α}

/-- A path leads to something that tells a value. -/
def Tells (tells : Target → Option α) (t : Target) (path : Path) (a : α) : Prop := (t.follow path).bind tells = some a

theorem tells_nil {t : Target} : t.Tells tells [] a ↔ tells t = some a := Iff.rfl

theorem tells_cons {t : Target} {place : Place} {deeper : Path} :
    t.Tells tells (place :: deeper) a ↔ ∃ u, t.child? place = some u ∧ u.Tells tells deeper a := by
  unfold Tells
  rw [follow, Option.bind_assoc, Option.bind_eq_some_iff]

/-- What tells nothing itself passes on what is told below it. -/
theorem tells_below {t : Target} (silent : tells t = none) :
    t.Tells tells path a ↔ ∃ place u, t.child? place = some u ∧ Under place (u.Tells tells) path a := by
  cases path with
  | nil =>
    rw [tells_nil, silent]
    constructor
    · intro told
      cases told
    · rintro ⟨place, u, -, deeper, none, -⟩
      cases none
  | cons place deeper =>
    rw [tells_cons]
    constructor
    · rintro ⟨u, there, told⟩
      exact ⟨place, u, there, deeper, rfl, told⟩
    · rintro ⟨_, u, there, _, same, told⟩
      cases same
      exact ⟨u, there, told⟩

/-- A condition has nothing below it. -/
theorem tells_condition {c : Condition} : (condition c).Tells tells path a ↔ path = [] ∧ tells (.condition c) = some a := by
  cases path with
  | nil => rw [tells_nil, and_iff_right rfl]
  | cons place deeper =>
    rw [tells_cons]
    constructor
    · rintro ⟨u, there, -⟩
      cases place <;> cases there
    · rintro ⟨none, -⟩
      cases none

/-- What the gate of an item tells. -/
def GateTells (tells : Target → Option α) (gate : Option Condition) (path : Path) (a : α) : Prop :=
  ∃ c, gate = some c ∧ Under .gate ((condition c).Tells tells) path a

/-- What the items of a row tell, of which the first has an index. -/
def RowTells (tells : Target → Option α) (index : Nat) (items : List Item) (path : Path) (a : α) : Prop :=
  ∃ n i, items[n]? = some i ∧ Under (.item (index + n)) ((item i).Tells tells) path a

theorem rowTells_nil {index : Nat} : ¬RowTells tells index [] path a := by
  rintro ⟨n, i, there, -⟩
  cases there

theorem rowTells_cons {index : Nat} {i : Item} {rest : List Item} : RowTells tells index (i :: rest) path a ↔
    Under (.item index) ((item i).Tells tells) path a ∨ RowTells tells (index + 1) rest path a := by
  have behind (n : Nat) : index + (n + 1) = index + 1 + n := by omega
  constructor
  · rintro ⟨n, j, there, under⟩
    cases n with
    | zero =>
      cases there
      exact .inl under
    | succ n => exact .inr ⟨n, j, there, behind n ▸ under⟩
  · rintro (under | ⟨n, j, there, under⟩)
    · exact ⟨0, i, rfl, under⟩
    · exact ⟨n + 1, j, there, behind n ▸ under⟩

theorem tells_row {items : List Item} (silent : tells (.row items) = none) :
    (row items).Tells tells path a ↔ RowTells tells 0 items path a := by
  rw [tells_below silent]
  constructor
  · rintro ⟨place, u, there, under⟩
    cases place with
    | item n =>
      obtain ⟨i, found, rfl⟩ := Option.map_eq_some_iff.mp there
      exact ⟨n, i, found, (Nat.zero_add n).symm ▸ under⟩
    | _ => cases there
  · rintro ⟨n, i, found, under⟩
    rw [Nat.zero_add] at under
    exact ⟨.item n, .item i, Option.map_eq_some_iff.mpr ⟨i, found, rfl⟩, under⟩

section
variable {id : String} {input : Script.Value} {test : Condition} {items : List Item} {gate : Option Condition} {signal : Signal}

theorem tells_step (silent : tells (.item (.step id input gate)) = none) :
    (item (.step id input gate)).Tells tells path a ↔ GateTells tells gate path a := by
  rw [tells_below silent]
  constructor
  · rintro ⟨place, u, there, under⟩
    cases place with
    | gate =>
      obtain ⟨c, gated, rfl⟩ := Option.map_eq_some_iff.mp there
      exact ⟨c, gated, under⟩
    | _ => cases there
  · rintro ⟨c, rfl, under⟩
    exact ⟨_, _, rfl, under⟩

theorem tells_block (silent : tells (.item (.block items gate)) = none) (silent_row : tells (.row items) = none) :
    (item (.block items gate)).Tells tells path a ↔
      GateTells tells gate path a ∨ Under .steps (RowTells tells 0 items) path a := by
  rw [tells_below silent]
  constructor
  · rintro ⟨place, u, there, under⟩
    cases place with
    | gate =>
      obtain ⟨c, gated, rfl⟩ := Option.map_eq_some_iff.mp there
      exact .inl ⟨c, gated, under⟩
    | steps =>
      cases there
      obtain ⟨deeper, rfl, told⟩ := under
      exact .inr ⟨deeper, rfl, (tells_row silent_row).mp told⟩
    | _ => cases there
  · rintro (⟨c, rfl, under⟩ | ⟨deeper, rfl, told⟩)
    · exact ⟨_, _, rfl, under⟩
    · exact ⟨_, _, rfl, deeper, rfl, (tells_row silent_row).mpr told⟩

theorem tells_loop (silent : tells (.item (.loop test items gate)) = none) (silent_row : tells (.row items) = none) :
    (item (.loop test items gate)).Tells tells path a ↔
      (GateTells tells gate path a ∨ Under .test ((condition test).Tells tells) path a) ∨
        Under .steps (RowTells tells 0 items) path a := by
  rw [tells_below silent]
  constructor
  · rintro ⟨place, u, there, under⟩
    cases place with
    | gate =>
      obtain ⟨c, gated, rfl⟩ := Option.map_eq_some_iff.mp there
      exact .inl (.inl ⟨c, gated, under⟩)
    | test =>
      cases there
      exact .inl (.inr under)
    | steps =>
      cases there
      obtain ⟨deeper, rfl, told⟩ := under
      exact .inr ⟨deeper, rfl, (tells_row silent_row).mp told⟩
    | _ => cases there
  · rintro ((⟨c, rfl, under⟩ | under) | ⟨deeper, rfl, told⟩)
    · exact ⟨_, _, rfl, under⟩
    · exact ⟨_, _, rfl, under⟩
    · exact ⟨_, _, rfl, deeper, rfl, (tells_row silent_row).mpr told⟩

theorem tells_marker (silent : tells (.item (.marker signal test)) = none) :
    (item (.marker signal test)).Tells tells path a ↔ Under (.marker signal) ((condition test).Tells tells) path a := by
  rw [tells_below silent]
  constructor
  · rintro ⟨place, u, there, under⟩
    cases place with
    | marker other =>
      rw [child?] at there
      split at there
      · next same =>
        cases there
        exact same ▸ under
      · cases there
    | _ => cases there
  · intro under
    exact ⟨.marker signal, .condition test, if_pos rfl, under⟩

end

end Target

namespace Enumerates
open Target
variable {α : Type} {tells : Target → Option α} {index : Nat} {i : Item}

theorem cons {rest : List Item} {found more : List (Path × α)}
    (first : Enumerates ((Target.item i).Tells tells) found) (others : Enumerates (RowTells tells (index + 1) rest) more) :
    Enumerates (RowTells tells index (i :: rest)) (Workflow.below [.item index] found ++ more) := by
  refine ((first.below (.item index)).append others ?_).of_iff (fun _ _ => rowTells_cons)
  rintro path a later b under ⟨n, j, -, under'⟩
  exact under_before (.items (by omega)) under under'

/-- What is found in an item is found in its row. -/
theorem mem_row {items : List Item} {found inner : List (Path × α)} {path : Path} {a : α}
    (row : Enumerates (RowTells tells index items) found) (item : Enumerates ((Target.item i).Tells tells) inner)
    (member : i ∈ items) (inside : (path, a) ∈ inner) : ∃ path, (path, a) ∈ found := by
  obtain ⟨n, there⟩ := List.mem_iff_getElem?.mp member
  have told := (item.complete path a).mp inside
  exact ⟨_, (row.complete _ _).mpr ⟨n, i, there, path, rfl, told⟩⟩

end Enumerates

/-! Steps. -/

section
variable {gate : Option Condition} {path : Path} {id : String}

theorem condition_tells_no_step {c : Condition} : ¬(Target.condition c).Tells Target.stepId? path id := by
  rw [Target.tells_condition]
  rintro ⟨-, told⟩
  cases told

theorem gate_tells_no_step : ¬Target.GateTells Target.stepId? gate path id := by
  rintro ⟨c, -, deeper, -, told⟩
  exact condition_tells_no_step told

theorem under_tells_no_step {place : Place} {c : Condition} :
    ¬Under place ((Target.condition c).Tells Target.stepId?) path id := by
  rintro ⟨deeper, -, told⟩
  exact condition_tells_no_step told

/-- A step tells its id, and nothing below it tells another one. -/
theorem step_tells {id other : String} {input : Script.Value} :
    (Target.item (.step id input gate)).Tells Target.stepId? path other ↔ path = [] ∧ other = id := by
  cases path with
  | nil => rw [Target.tells_nil, Target.stepId?, Option.some.injEq, eq_comm, and_iff_right rfl]
  | cons place deeper =>
    rw [Target.tells_cons]
    constructor
    · rintro ⟨u, there, told⟩
      cases place with
      | gate =>
        obtain ⟨c, -, rfl⟩ := Option.map_eq_some_iff.mp there
        exact absurd told condition_tells_no_step
      | _ => cases there
    · rintro ⟨none, -⟩
      cases none

end

mutual

theorem Item.enumerates_stepIds (i : Item) : Enumerates ((Target.item i).Tells Target.stepId?) i.stepIds := by
  match i with
  | .step id input gate => exact Enumerates.single.of_iff (fun _ _ => step_tells)
  | .block items gate =>
    refine ((enumerates_stepIdsFrom 0 items).below .steps).of_iff (fun path id => ?_)
    rw [Target.tells_block rfl rfl, or_iff_right gate_tells_no_step]
  | .loop test items gate =>
    refine ((enumerates_stepIdsFrom 0 items).below .steps).of_iff (fun path id => ?_)
    rw [Target.tells_loop rfl rfl, or_iff_right (not_or.mpr ⟨gate_tells_no_step, under_tells_no_step⟩)]
  | .marker signal test =>
    refine Enumerates.nothing (fun path id => ?_)
    rw [Target.tells_marker rfl]
    exact under_tells_no_step

theorem enumerates_stepIdsFrom (index : Nat) (items : List Item) :
    Enumerates (Target.RowTells Target.stepId? index items) (stepIdsFrom index items) := by
  -- the index is free, since the rest of a row is walked from a later one
  match items with
  | [] => exact .nothing (fun _ _ => Target.rowTells_nil)
  | i :: rest => exact i.enumerates_stepIds.cons (enumerates_stepIdsFrom (index + 1) rest)

end

/-! Conditions. -/

theorem under_tells_condition {place : Place} {c d : Condition} {path : Path} :
    Under place ((Target.condition c).Tells Target.condition?) path d ↔ path = [place] ∧ d = c := by
  constructor
  · rintro ⟨deeper, rfl, told⟩
    obtain ⟨rfl, told⟩ := Target.tells_condition.mp told
    cases told
    exact ⟨rfl, rfl⟩
  · rintro ⟨rfl, rfl⟩
    exact ⟨[], rfl, Target.tells_nil.mpr rfl⟩

theorem enumerates_test (place : Place) (c : Condition) :
    Enumerates (Under place ((Target.condition c).Tells Target.condition?)) [([place], c)] :=
  Enumerates.single.of_iff (fun _ _ => under_tells_condition)

theorem enumerates_gateAt (gate : Option Condition) : Enumerates (Target.GateTells Target.condition? gate) (gateAt gate) := by
  cases gate with
  | none =>
    refine .nothing (fun path c => ?_)
    rintro ⟨d, none, -⟩
    cases none
  | some c =>
    refine (enumerates_test .gate c).of_iff (fun path d => ?_)
    constructor
    · rintro ⟨_, same, under⟩
      cases same
      exact under
    · intro under
      exact ⟨c, rfl, under⟩

theorem gate_before {α β : Type} {tells : Target → Option α} {told : Path → β → Prop} {gate : Option Condition} {place : Place}
    (first : Place.gate.Before place) (path : Path) (a : α) (later : Path) (b : β) (gated : Target.GateTells tells gate path a)
    (under : Under place told later b) : path.Before later := by
  obtain ⟨c, -, under'⟩ := gated
  exact under_before first under' under

mutual

theorem Item.enumerates_conditions (i : Item) : Enumerates ((Target.item i).Tells Target.condition?) i.conditions := by
  match i with
  | .step id input gate => exact (enumerates_gateAt gate).of_iff (fun _ _ => Target.tells_step rfl)
  | .block items gate =>
    have inside := (enumerates_conditionsFrom 0 items).below .steps
    exact ((enumerates_gateAt gate).append inside (gate_before .gateSteps)).of_iff (fun _ _ => Target.tells_block rfl rfl)
  | .loop test items gate =>
    have inside := (enumerates_conditionsFrom 0 items).below .steps
    have tested := (enumerates_gateAt gate).append (enumerates_test .test test) (gate_before .gateTest)
    refine (tested.append inside ?_).of_iff (fun _ _ => Target.tells_loop rfl rfl)
    rintro path c later d (gated | under) under'
    · exact gate_before .gateSteps path c later d gated under'
    · exact under_before .testSteps under under'
  | .marker signal test => exact (enumerates_test (.marker signal) test).of_iff (fun _ _ => Target.tells_marker rfl)

theorem enumerates_conditionsFrom (index : Nat) (items : List Item) :
    Enumerates (Target.RowTells Target.condition? index items) (conditionsFrom index items) := by
  match items with
  | [] => exact .nothing (fun _ _ => Target.rowTells_nil)
  | i :: rest => exact i.enumerates_conditions.cons (enumerates_conditionsFrom (index + 1) rest)

end

namespace Schema

/-- A text leads to what the path leads to that is written so. -/
def Leads (items : Schema) (text : String) (t : Target) : Prop :=
  ∃ path : Path, path.text = text ∧ (Target.row items).follow path = some t

/-- Some entries are all of one kind that there is in a schema, in the order of the tree, and the texts of their paths are
addresses. -/
structure Surveys {α : Type} (items : Schema) (tells : Target → Option α) (found : List (Path × α)) : Prop
    extends Enumerates ((Target.row items).Tells tells) found where
  distinct : (found.map (fun e => e.1.text)).Nodup
  addressed : ∀ e ∈ found, ∃ t, tells t = some e.2 ∧ ∀ u, items.Leads e.1.text u ↔ u = t

theorem surveys_of_enumerates {α : Type} {items : Schema} {tells : Target → Option α} {found : List (Path × α)}
    (enumerates : Enumerates ((Target.row items).Tells tells) found) : items.Surveys tells found where
  toEnumerates := enumerates
  distinct := by
    refine enumerates.ordered.map _ (fun e later before => ?_)
    intro same
    rw [Path.text_injective same] at before
    exact List.lex_irrefl Place.before_irrefl _ before
  addressed := by
    rintro ⟨path, a⟩ member
    obtain ⟨t, there, told⟩ := Option.bind_eq_some_iff.mp ((enumerates.complete path a).mp member)
    refine ⟨t, told, fun u => ?_⟩
    constructor
    · rintro ⟨other, same, found⟩
      rw [Path.text_injective same, there] at found
      cases found
      rfl
    · rintro rfl
      exact ⟨path, rfl, there⟩

/-- The walks through a schema are complete: they meet each step and each condition in it once and in the order of the tree,
and the text of a path leads to what was met there and to nothing else. -/
theorem walks_survey (items : Schema) :
    items.Surveys Target.stepId? items.stepIds ∧ items.Surveys Target.condition? items.conditions :=
  ⟨surveys_of_enumerates ((enumerates_stepIdsFrom 0 items).of_iff (fun _ _ => Target.tells_row rfl)),
    surveys_of_enumerates ((enumerates_conditionsFrom 0 items).of_iff (fun _ _ => Target.tells_row rfl))⟩

example (outer test inner : Condition) :
    conditions [.loop test [.step "draft" .nothing (some inner)] (some outer)] =
      [([.item 0, .gate], outer), ([.item 0, .test], test), ([.item 0, .steps, .item 0, .gate], inner)] := rfl

end Schema

end Workflow
