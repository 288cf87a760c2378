import Workflow.Proofs.Grammar

/-! What may be wrong with a value that stands where an item of a schema belongs, and which items stand in a row, one after
the other and each before its contents. In a value that spells a schema, no item has a flaw. -/

namespace Workflow
open Script (Value Heap Entries Fields RecordKind)

/-- The keys that are none of some names, in their order. -/
def Script.Entries.beside (entries : Entries) (names : List String) : List Value :=
  (entries.toList.map (·.1)).filter (fun key => !names.any (fun name => key.sameKey (.str name)))

namespace Grammar

/-! Parts of items. -/

/-- What an item holds: an entry of a table, or a field of a typed item of some kinds. -/
def held? (h : Heap) (entry : String) (kinds : List RecordKind) (field : String) : Value → Option Value
  | .ref a =>
    match h.object a with
    | .dict entries => Entries.named? entries entry
    | .record kind fields => if kind ∈ kinds then some (Fields.member fields field) else none
    | _ => none
  | _ => none

def idOf? (h : Heap) : Value → Option Value := held? h "id" [.stepRef] "id"

def gateOf? (h : Heap) : Value → Option Value := held? h "condition" [.stepRef, .subflowBlock, .loopBlock] "condition"

def testOf? (h : Heap) : Value → Option Value := held? h "while" [.loopBlock] "while_"

def stepsOf? (h : Heap) : Value → Option Value := held? h "steps" [.subflowBlock, .loopBlock] "steps"

/-- The condition of a marker with a signal. -/
def markerOf? (h : Heap) (signal : Signal) : Value → Option Value
  | .ref a =>
    match h.object a with
    | .dict entries => Entries.named? entries signal.name
    | .record .controlMarker fields =>
      if (Fields.member fields "kind").sameKey (.str signal.name) then some (Fields.member fields "condition") else none
    | _ => none
  | _ => none

/-- The contents of an item lie in a loop if the item has a test or lies in a loop itself. -/
def loops (h : Heap) (inLoop : Bool) (v : Value) : Bool := inLoop || (testOf? h v).isSome

/-! Items without a flaw of their own. -/

/-- A value has the form of an item, whatever it holds. -/
inductive Form (h : Heap) : Value → Prop
  | name {id : String} (present : id ≠ "") : Form h (.str id)
  | step {a : Script.Addr} {entries : Entries} (found : h.object a = .dict entries)
      (only : entries.Within ["id", "input", "condition"]) (named : (entries.named? "id").isSome) : Form h (.ref a)
  | block {a : Script.Addr} {entries : Entries} (found : h.object a = .dict entries)
      (only : entries.Within ["steps", "condition", "while"]) (inside : (entries.named? "steps").isSome) : Form h (.ref a)
  | marker {a : Script.Addr} {entries : Entries} {signal : Signal} (found : h.object a = .dict entries)
      (only : entries.Within [signal.name]) (named : (entries.named? signal.name).isSome) : Form h (.ref a)
  | typed {a : Script.Addr} {kind : RecordKind} {fields : Fields} (found : h.object a = .record kind fields)
      (known : kind ∈ [.stepRef, .subflowBlock, .loopBlock]) : Form h (.ref a)
  | typedMarker {a : Script.Addr} {fields : Fields} {signal : Signal} (found : h.object a = .record .controlMarker fields)
      (named : fields.member "kind" = .str signal.name) : Form h (.ref a)

/-- A value is an item in order, apart from what its contents are. -/
structure WellShaped (h : Heap) (inLoop : Bool) (v : Value) : Prop where
  form : Form h v
  id : ∀ w, idOf? h v = some w → ∃ id, w = .str id ∧ id ≠ ""
  gate : ∀ w, gateOf? h v = some w → ∃ gate, Gates h w gate
  test : ∀ w, testOf? h v = some w → ∃ c, Tests h w c
  marker : ∀ signal w, markerOf? h signal v = some w → inLoop = true ∧ ∃ c, Tests h w c
  steps : ∀ w, stepsOf? h v = some w → ∃ values, rowOf? h w = some values

/-! Flaws. -/

/-- Why a value is no condition. -/
inductive Untestable (h : Heap) : Value → Cause → Prop
  | missing : Untestable h .nothing .noCondition
  | blank {text : String} (blank : text.toList.all Text.isBlank = true) : Untestable h (.str text) .emptyCondition
  | inert {v : Value} (present : v ≠ .nothing) (other : ∀ text, v ≠ .str text) (inert : v.isCallable h = false) :
      Untestable h v (.notCondition v)

/-- What is wrong with an item, and where: with the item itself, or with its condition, its test, its marker or its steps. -/
inductive Flawed (h : Heap) : (inLoop : Bool) → Value → Path → Cause → Prop
  | other {inLoop : Bool} {v : Value} (other : ¬IsItem h v) : Flawed h inLoop v [] (.notItem v)
  | nameless {inLoop : Bool} : Flawed h inLoop (.str "") [] (.stepId (.str ""))
  | id {inLoop : Bool} {v w : Value} (held : idOf? h v = some w) (unnamed : ∀ id, w = .str id → id = "") :
      Flawed h inLoop v [] (.stepId w)
  | gate {inLoop : Bool} {v w : Value} {cause : Cause} (held : gateOf? h v = some w) (present : w ≠ .nothing)
      (untestable : Untestable h w cause) : Flawed h inLoop v [.gate] cause
  | test {inLoop : Bool} {v w : Value} {cause : Cause} (held : testOf? h v = some w) (untestable : Untestable h w cause) :
      Flawed h inLoop v [.test] cause
  | marker {inLoop : Bool} {v w : Value} {signal : Signal} {cause : Cause} (held : markerOf? h signal v = some w)
      (untestable : Untestable h w cause) : Flawed h inLoop v [.marker signal] cause
  | outside {v w : Value} {signal : Signal} (held : markerOf? h signal v = some w) :
      Flawed h false v [] (.outsideLoop signal)
  | kind {inLoop : Bool} {a : Script.Addr} {fields : Fields} (found : h.object a = .record .controlMarker fields)
      (unknown : ∀ signal : Signal, fields.member "kind" ≠ .str signal.name) :
      Flawed h inLoop (.ref a) [] (.unknownMarker (fields.member "kind"))
  | mixed {inLoop : Bool} {a : Script.Addr} {entries : Entries} {signal : Signal} (found : h.object a = .dict entries)
      (named : (entries.named? signal.name).isSome) (more : entries.beside [signal.name] ≠ []) :
      Flawed h inLoop (.ref a) [] (.mixedMarker signal (entries.beside [signal.name]))
  | stepFields {inLoop : Bool} {a : Script.Addr} {entries : Entries} (found : h.object a = .dict entries)
      (named : (entries.named? "id").isSome) (more : entries.beside ["id", "input", "condition"] ≠ []) :
      Flawed h inLoop (.ref a) [] (.stepFields (entries.beside ["id", "input", "condition"]))
  | blockFields {inLoop : Bool} {a : Script.Addr} {entries : Entries} (found : h.object a = .dict entries)
      (unnamed : entries.named? "id" = none) (inside : (entries.named? "steps").isSome)
      (more : entries.beside ["steps", "condition", "while"] ≠ []) :
      Flawed h inLoop (.ref a) [] (.blockFields (entries.beside ["steps", "condition", "while"]))
  | shapeless {inLoop : Bool} {a : Script.Addr} {entries : Entries} (found : h.object a = .dict entries)
      (unmarked : ∀ signal : Signal, entries.named? signal.name = none) (unnamed : entries.named? "id" = none)
      (empty : entries.named? "steps" = none) : Flawed h inLoop (.ref a) [] .shapeless
  | steps {inLoop : Bool} {v w : Value} (held : stepsOf? h v = some w) (rowless : rowOf? h w = none) :
      Flawed h inLoop v [.steps] (.notRow w)

/-! Items in their order. -/

/-- The item that stands at a position in a row, and whether it lies in a loop. A position counts along the row, and then
along the rows inside. -/
inductive Stands (h : Heap) : (inLoop : Bool) → (row : Value) → (position : List Nat) → (looped : Bool) → Value → Prop
  | here {inLoop : Bool} {row v : Value} {values : List Value} {k : Nat} (opened : rowOf? h row = some values)
      (there : values[k]? = some v) : Stands h inLoop row [k] inLoop v
  | inside {inLoop looped : Bool} {row v w steps : Value} {values : List Value} {k : Nat} {deeper : List Nat}
      (opened : rowOf? h row = some values) (there : values[k]? = some v) (held : stepsOf? h v = some steps)
      (below : Stands h (loops h inLoop v) steps deeper looped w) : Stands h inLoop row (k :: deeper) looped w

/-- The path to a position. -/
def pathTo (position : List Nat) : Path := (position.map Place.item).intersperse .steps

/-- A flaw of the item at some position. Every item before it is in order, where the order is that of the document and has
each block before its contents. -/
structure FlawedFirst (h : Heap) (inLoop : Bool) (row : Value) (position : List Nat) (rest : Path) (cause : Cause) : Prop where
  flawed : ∃ looped v, Stands h inLoop row position looped v ∧ Flawed h looped v rest cause ∧ ¬WellShaped h looped v
  first : ∀ earlier < position, ∀ looped v, Stands h inLoop row earlier looped v → WellShaped h looped v

/-- The first flaw in a value that stands where a row belongs: the value is no row, or an item in it has the flaw. -/
def FirstFlaw (h : Heap) (inLoop : Bool) (row : Value) (path : Path) (cause : Cause) : Prop :=
  (rowOf? h row = none ∧ path = [] ∧ cause = .notRow row) ∨
    ∃ position rest, FlawedFirst h inLoop row position rest cause ∧ path = pathTo position ++ rest

/-! What is in order has no flaw. -/

variable {h : Heap} {inLoop : Bool} {v : Value} {a : Script.Addr}

theorem Tests.not_untestable {c : Condition} {cause : Cause} (tests : Tests h v c) : ¬Untestable h v cause := by
  intro untestable
  cases tests with
  | source inside visible =>
    cases untestable with
    | blank blank => exact absurd (List.all_eq_true.mp blank _ inside) (Bool.eq_false_iff.mp visible)
    | inert _ other => exact other _ rfl
  | call callable =>
    cases untestable with
    | missing | blank => cases callable
    | inert _ _ inert => exact absurd callable (Bool.eq_false_iff.mp inert)

theorem Gates.not_untestable {gate : Option Condition} {cause : Cause} (gates : Gates h v gate) (present : v ≠ .nothing) :
    ¬Untestable h v cause := by
  cases gates with
  | free => exact absurd rfl present
  | gate tests => exact tests.not_untestable

theorem beside_eq_nil {entries : Entries} {names : List String} : entries.beside names = [] ↔ entries.Within names := by
  simp [Entries.beside, List.filter_eq_nil_iff, Entries.Within, Script.Value.sameKey_str]

theorem Form.isItem (form : Form h v) : IsItem h v := by
  cases form with
  | name => trivial
  | step found | block found | marker found => simp only [IsItem, found]
  | typed found known =>
    simp only [IsItem, found]
    exact List.mem_append_left [_] known
  | typedMarker found => simp [IsItem, found]

/-- The forms of a table: a step, a block or a loop, and a marker. -/
theorem Form.table {entries : Entries} (form : Form h (.ref a)) (found : h.object a = .dict entries) :
    (entries.Within ["id", "input", "condition"] ∧ (entries.named? "id").isSome) ∨
      (entries.Within ["steps", "condition", "while"] ∧ (entries.named? "steps").isSome) ∨
      ∃ signal : Signal, entries.Within [signal.name] ∧ (entries.named? signal.name).isSome := by
  cases form with
  | step same only named =>
    cases found.symm.trans same
    exact .inl ⟨only, named⟩
  | block same only inside =>
    cases found.symm.trans same
    exact .inr (.inl ⟨only, inside⟩)
  | marker same only named =>
    cases found.symm.trans same
    exact .inr (.inr ⟨_, only, named⟩)
  | typed other => cases found.symm.trans other
  | typedMarker other => cases found.symm.trans other

theorem not_within {entries : Entries} {names : List String} {name : String} (named : (entries.named? name).isSome)
    (other : name ∉ names) : ¬entries.Within names := by
  intro only
  rw [Draft.absent only other] at named
  cases named

theorem Flawed.not_wellShaped {path : Path} {cause : Cause} (flawed : Flawed h inLoop v path cause) :
    ¬WellShaped h inLoop v := by
  intro shaped
  cases flawed with
  | other other => exact other shaped.form.isItem
  | nameless =>
    cases shaped.form with
    | name present => exact present rfl
  | id held unnamed =>
    obtain ⟨id, same, present⟩ := shaped.id _ held
    exact present (unnamed id same)
  | gate held present untestable =>
    obtain ⟨gate, gates⟩ := shaped.gate _ held
    exact gates.not_untestable present untestable
  | test held untestable =>
    obtain ⟨c, tests⟩ := shaped.test _ held
    exact tests.not_untestable untestable
  | marker held untestable =>
    obtain ⟨-, c, tests⟩ := shaped.marker _ _ held
    exact tests.not_untestable untestable
  | outside held => cases (shaped.marker _ _ held).1
  | kind found unknown =>
    cases shaped.form with
    | step other | block other | marker other => cases found.symm.trans other
    | typed same known =>
      cases found.symm.trans same
      revert known
      decide
    | typedMarker same named =>
      cases found.symm.trans same
      exact unknown _ named
  | @mixed _ _ _ signal found named more =>
    obtain ⟨only, -⟩ | ⟨only, -⟩ | ⟨other, only, -⟩ := shaped.form.table found
    · exact not_within named (by cases signal <;> decide) only
    · exact not_within named (by cases signal <;> decide) only
    · by_cases same : signal.name = other.name
      · rw [← same] at only
        exact more (beside_eq_nil.mpr only)
      · exact not_within named (by simpa using same) only
  | stepFields found named more =>
    obtain ⟨only, -⟩ | ⟨only, -⟩ | ⟨signal, only, -⟩ := shaped.form.table found
    · exact more (beside_eq_nil.mpr only)
    · exact not_within named (by decide) only
    · exact not_within named (by cases signal <;> decide) only
  | blockFields found unnamed inside more =>
    obtain ⟨-, named⟩ | ⟨only, -⟩ | ⟨signal, only, -⟩ := shaped.form.table found
    · simp [unnamed] at named
    · exact more (beside_eq_nil.mpr only)
    · exact not_within inside (by cases signal <;> decide) only
  | shapeless found unmarked unnamed empty =>
    obtain ⟨-, named⟩ | ⟨-, inside⟩ | ⟨signal, -, named⟩ := shaped.form.table found
    · simp [unnamed] at named
    · simp [empty] at inside
    · simp [unmarked signal] at named
  | steps held rowless =>
    obtain ⟨values, opened⟩ := shaped.steps _ held
    cases rowless.symm.trans opened

/-! What spells an item is in order. -/

variable {resolve : String → String}

/-- A table is in order if its form is, and each entry that it has. -/
theorem WellShaped.table {entries : Entries} (found : h.object a = .dict entries) (form : Form h (.ref a))
    (id : ∀ w, entries.named? "id" = some w → ∃ id, w = .str id ∧ id ≠ "")
    (gate : ∃ gate, Gates h ((entries.named? "condition").getD .nothing) gate)
    (test : ∀ w, entries.named? "while" = some w → ∃ c, Tests h w c)
    (marker : ∀ (signal : Signal) w, entries.named? signal.name = some w → inLoop = true ∧ ∃ c, Tests h w c)
    (steps : ∀ w, entries.named? "steps" = some w → ∃ values, rowOf? h w = some values) : WellShaped h inLoop (.ref a) where
  form := form
  id w held := id w (by simpa only [idOf?, held?, found] using held)
  gate w held := by
    have named : entries.named? "condition" = some w := by simpa only [gateOf?, held?, found] using held
    rwa [named, Option.getD_some] at gate
  test w held := test w (by simpa only [testOf?, held?, found] using held)
  marker signal w held := marker signal w (by simpa only [markerOf?, found] using held)
  steps w held := steps w (by simpa only [stepsOf?, held?, found] using held)

theorem held?_typed {kind : RecordKind} {fields : Fields} (found : h.object a = .record kind fields) {entry field : String}
    {kinds : List RecordKind} {w : Value} :
    held? h entry kinds field (.ref a) = some w ↔ kind ∈ kinds ∧ fields.member field = w := by
  simp [held?, found]

theorem markerOf?_typed {fields : Fields} (found : h.object a = .record .controlMarker fields) {signal : Signal} {w : Value} :
    markerOf? h signal (.ref a) = some w ↔ fields.member "kind" = .str signal.name ∧ fields.member "condition" = w := by
  simp [markerOf?, found, Script.Value.sameKey_str]

/-- A typed item is in order if its kind is that of a step, a block or a loop, and so is each field of that kind. -/
theorem WellShaped.typed {kind : RecordKind} {fields : Fields} (found : h.object a = .record kind fields)
    (known : kind ∈ [.stepRef, .subflowBlock, .loopBlock])
    (id : kind ∈ [.stepRef] → ∃ id, fields.member "id" = .str id ∧ id ≠ "")
    (gate : ∃ gate, Gates h (fields.member "condition") gate)
    (test : kind ∈ [.loopBlock] → ∃ c, Tests h (fields.member "while_") c)
    (steps : kind ∈ [.subflowBlock, .loopBlock] → ∃ values, rowOf? h (fields.member "steps") = some values) :
    WellShaped h inLoop (.ref a) where
  form := .typed found known
  id w held := by
    obtain ⟨among, rfl⟩ := (held?_typed found).mp held
    exact id among
  gate w held := by
    obtain ⟨-, rfl⟩ := (held?_typed found).mp held
    exact gate
  test w held := by
    obtain ⟨among, rfl⟩ := (held?_typed found).mp held
    exact test among
  marker signal w held := by
    have unmarked : markerOf? h signal (.ref a) = none := by
      simp only [markerOf?, found]
      cases kind with
      | controlMarker => exact absurd known (by decide)
      | _ => rfl
    cases unmarked.symm.trans held
  steps w held := by
    obtain ⟨among, rfl⟩ := (held?_typed found).mp held
    exact steps among

theorem absent_ne {entries : Entries} {names : List String} {name : String} {w : Value} (only : entries.Within names)
    (other : name ∉ names) : entries.named? name ≠ some w := by
  rw [Draft.absent only other]
  exact nofun

theorem SpellsRow.isRow {row : Value} {items : List Item} (spelt : SpellsRow h resolve inLoop row items) :
    ∃ values, rowOf? h row = some values := by
  obtain ⟨values, opened, -⟩ := spelt.opened
  exact ⟨values, opened⟩

theorem Spells.wellShaped {i : Item} (spells : Spells h resolve inLoop v i) : WellShaped h inLoop v := by
  cases spells with
  | name present => exact ⟨.name present, nofun, nofun, nofun, nofun, nofun⟩
  | @step _ _ _ id _ found only named present gated =>
    refine .table found (.step found only (by rw [named]; rfl)) (fun w held => ?_) ⟨_, gated⟩ (fun w held => ?_)
      (fun signal w held => ?_) (fun w held => ?_)
    · cases named.symm.trans held
      exact ⟨id, rfl, present⟩
    · exact absurd held (absent_ne only (by decide))
    · exact absurd held (absent_ne only (by cases signal <;> decide))
    · exact absurd held (absent_ne only (by decide))
  | block found only free inside spelt gated =>
    refine .table found (.block found only (by rw [inside]; rfl)) (fun w held => ?_) ⟨_, gated⟩ (fun w held => ?_)
      (fun signal w held => ?_) (fun w held => ?_)
    · exact absurd held (absent_ne only (by decide))
    · cases free.symm.trans held
    · exact absurd held (absent_ne only (by cases signal <;> decide))
    · cases inside.symm.trans held
      exact spelt.isRow
  | loop found only tested tests inside spelt gated =>
    refine .table found (.block found only (by rw [inside]; rfl)) (fun w held => ?_) ⟨_, gated⟩ (fun w held => ?_)
      (fun signal w held => ?_) (fun w held => ?_)
    · exact absurd held (absent_ne only (by decide))
    · cases tested.symm.trans held
      exact ⟨_, tests⟩
    · exact absurd held (absent_ne only (by cases signal <;> decide))
    · cases inside.symm.trans held
      exact spelt.isRow
  | @marker _ _ signal _ _ found only named tests =>
    refine .table found (.marker found only (by rw [named]; rfl)) (fun w held => ?_) ⟨none, ?_⟩ (fun w held => ?_)
      (fun other w held => ?_) (fun w held => ?_)
    · exact absurd held (absent_ne only (by cases signal <;> decide))
    · rw [Draft.absent only (by cases signal <;> decide)]
      exact .free
    · exact absurd held (absent_ne only (by cases signal <;> decide))
    · by_cases same : other.name = signal.name
      · rw [same] at held
        cases named.symm.trans held
        exact ⟨rfl, _, tests⟩
      · exact absurd held (absent_ne only (by simpa using same))
    · exact absurd held (absent_ne only (by cases signal <;> decide))
  | typedStep found named present gated =>
    exact .typed found (by decide) (fun _ => ⟨_, named, present⟩) ⟨_, gated⟩ (absurd · (by decide)) (absurd · (by decide))
  | typedBlock found spelt gated =>
    exact .typed found (by decide) (absurd · (by decide)) ⟨_, gated⟩ (absurd · (by decide)) (fun _ => spelt.isRow)
  | typedLoop found tests spelt gated =>
    exact .typed found (by decide) (absurd · (by decide)) ⟨_, gated⟩ (fun _ => ⟨_, tests⟩) (fun _ => spelt.isRow)
  | typedMarker found named tests =>
    refine ⟨.typedMarker found named, fun w held => ?_, fun w held => ?_, fun w held => ?_, fun signal w held => ?_,
      fun w held => ?_⟩
    · exact absurd ((held?_typed found).mp held).1 (by decide)
    · exact absurd ((held?_typed found).mp held).1 (by decide)
    · exact absurd ((held?_typed found).mp held).1 (by decide)
    · obtain ⟨-, rfl⟩ := (markerOf?_typed found).mp held
      exact ⟨rfl, _, tests⟩
    · exact absurd ((held?_typed found).mp held).1 (by decide)

/-- What an item that is spelt holds as its steps is spelt as well. -/
theorem Spells.inside {i : Item} {steps : Value} (spells : Spells h resolve inLoop v i) (held : stepsOf? h v = some steps) :
    ∃ items, SpellsRow h resolve (loops h inLoop v) steps items := by
  cases spells with
  | name => cases held
  | step found only =>
    simp only [stepsOf?, held?, found] at held
    exact absurd held (absent_ne only (by decide))
  | block found only free inside spelt =>
    simp only [stepsOf?, held?, found] at held
    cases inside.symm.trans held
    simp only [loops, testOf?, held?, found, free, Option.isSome_none, Bool.or_false]
    exact ⟨_, spelt⟩
  | loop found only tested tests inside spelt =>
    simp only [stepsOf?, held?, found] at held
    cases inside.symm.trans held
    simp only [loops, testOf?, held?, found, tested, Option.isSome_some, Bool.or_true]
    exact ⟨_, spelt⟩
  | @marker _ _ signal _ _ found only =>
    simp only [stepsOf?, held?, found] at held
    exact absurd held (absent_ne only (by cases signal <;> decide))
  | typedStep found => exact absurd ((held?_typed found).mp held).1 (by decide)
  | @typedBlock _ a _ _ _ found spelt =>
    obtain ⟨-, rfl⟩ := (held?_typed found).mp held
    have free : testOf? h (.ref a) = none := by simp [testOf?, held?, found]
    rw [loops, free, Option.isSome_none, Bool.or_false]
    exact ⟨_, spelt⟩
  | typedLoop found tests spelt =>
    obtain ⟨-, rfl⟩ := (held?_typed found).mp held
    have tested : testOf? h (.ref _) = some _ := (held?_typed found).mpr ⟨by decide, rfl⟩
    rw [loops, tested, Option.isSome_some, Bool.or_true]
    exact ⟨_, spelt⟩
  | typedMarker found => exact absurd ((held?_typed found).mp held).1 (by decide)

theorem SpellsAll.member {values : List Value} {items : List Item} {k : Nat} (spelt : SpellsAll h resolve inLoop values items)
    (there : values[k]? = some v) : ∃ i, Spells h resolve inLoop v i := by
  induction values generalizing items k with
  | nil => cases there
  | cons first rest ih =>
    cases spelt with
    | cons spells others =>
      cases k with
      | zero =>
        cases there
        exact ⟨_, spells⟩
      | succ k => exact ih others there

/-- Wherever an item stands in a row that is spelt, it spells an item. -/
theorem Stands.spelt {row : Value} {items : List Item} {position : List Nat} {looped : Bool}
    (stands : Stands h inLoop row position looped v) (spelt : SpellsRow h resolve inLoop row items) :
    ∃ i, Spells h resolve looped v i := by
  induction stands generalizing items with
  | here opened there =>
    obtain ⟨values, same, spelt⟩ := spelt.opened
    cases opened.symm.trans same
    exact spelt.member there
  | inside opened there held _ ih =>
    obtain ⟨values, same, spelt⟩ := spelt.opened
    cases opened.symm.trans same
    obtain ⟨i, spells⟩ := spelt.member there
    obtain ⟨items, spelt⟩ := spells.inside held
    exact ih spelt

/-! The first flaw of a row. -/

theorem Stands.position_ne_nil {row : Value} {position : List Nat} {looped : Bool}
    (stands : Stands h inLoop row position looped v) : position ≠ [] := by
  cases stands <;> exact nofun

variable {row : Value} {values : List Value} {k : Nat} {rest : Path} {cause : Cause}

theorem Stands.spelt_below {j : Nat} {deeper : List Nat} {looped : Bool} {u : Value}
    (stands : Stands h inLoop row (j :: deeper) looped u) (opened : rowOf? h row = some values)
    (spelt : ∀ v, values[j]? = some v → ∃ i, Spells h resolve inLoop v i) : ∃ i, Spells h resolve looped u i := by
  cases stands with
  | here same there =>
    cases opened.symm.trans same
    exact spelt u there
  | inside same there held below =>
    cases opened.symm.trans same
    obtain ⟨i, spells⟩ := spelt _ there
    obtain ⟨items, inside⟩ := spells.inside held
    exact below.spelt inside

/-- An item with a flaw of its own, where each one before it in the row spells an item. -/
theorem FlawedFirst.here (opened : rowOf? h row = some values) (there : values[k]? = some v)
    (flawed : Flawed h inLoop v rest cause)
    (before : ∀ j < k, ∀ u, values[j]? = some u → ∃ i, Spells h resolve inLoop u i) :
    FlawedFirst h inLoop row [k] rest cause := by
  refine ⟨⟨_, v, .here opened there, flawed, flawed.not_wellShaped⟩, ?_⟩
  intro earlier sooner looped u stands
  cases earlier with
  | nil => exact absurd rfl stands.position_ne_nil
  | cons j deeper =>
    obtain less | ⟨-, impossible⟩ := List.cons_lt_cons_iff.mp sooner
    · obtain ⟨i, spells⟩ := stands.spelt_below opened (before j less)
      exact spells.wellShaped
    · exact absurd impossible (List.not_lt_nil deeper)

/-- An item in order with a flaw among its steps, where each one before it in the row spells an item. -/
theorem FlawedFirst.inside {steps : Value} {position : List Nat} (opened : rowOf? h row = some values)
    (there : values[k]? = some v) (shaped : WellShaped h inLoop v) (held : stepsOf? h v = some steps)
    (below : FlawedFirst h (loops h inLoop v) steps position rest cause)
    (before : ∀ j < k, ∀ u, values[j]? = some u → ∃ i, Spells h resolve inLoop u i) :
    FlawedFirst h inLoop row (k :: position) rest cause := by
  obtain ⟨⟨looped, w, stands, flawed, unshaped⟩, first⟩ := below
  refine ⟨⟨looped, w, .inside opened there held stands, flawed, unshaped⟩, ?_⟩
  intro earlier sooner looped u stands
  cases earlier with
  | nil => exact absurd rfl stands.position_ne_nil
  | cons j deeper =>
    obtain less | ⟨rfl, later⟩ := List.cons_lt_cons_iff.mp sooner
    · obtain ⟨i, spells⟩ := stands.spelt_below opened (before j less)
      exact spells.wellShaped
    · -- The item itself comes before its contents, and among these the flaw is the first one.
      cases stands with
      | here same here =>
        cases opened.symm.trans same
        cases there.symm.trans here
        exact shaped
      | inside same here again inner =>
        cases opened.symm.trans same
        cases there.symm.trans here
        cases held.symm.trans again
        exact first _ later _ _ inner

end Grammar
end Workflow
