import Workflow.Proofs.Flaws

/-! The check of a schema fails with the first flaw of what was written: the first item in the order of the document that is
not in order, and what is wrong with it. -/

namespace Workflow
open Script (Value Heap Entries Fields)

namespace Draft
open Grammar

theorem bind_error_iff {c : Checked α} {k : α → Checked β} {d : Defect} :
    c >>= k = .error d ↔ c = .error d ∨ ∃ a, c = .ok a ∧ k a = .error d := by
  cases c with
  | error e => simp [Bind.bind, Except.bind]
  | ok a => simp [Bind.bind, Except.bind]

theorem at_error_iff {place : Place} {c : Checked α} {d : Defect} :
    Checked.at place c = .error d ↔ ∃ e, c = .error e ∧ d = ⟨place :: e.path, e.cause⟩ := by
  cases c <;> simp [Checked.at, eq_comm]

variable {h : Heap} {v : Value} {defect : Defect}

/-! Members that are refused. -/

theorem condition_refused (refused : (ofMember h v).condition = .error defect) :
    ∃ cause, defect = ⟨[], cause⟩ ∧ Untestable h v cause := by
  unfold ofMember at refused
  split at refused
  · cases refused
    exact ⟨_, rfl, .missing⟩
  · simp only [condition] at refused
    split at refused
    · next blank =>
      cases refused
      exact ⟨_, rfl, .blank blank⟩
    · cases refused
  · next present other =>
    split at refused
    · cases refused
    · next inert =>
      cases refused
      exact ⟨_, rfl, .inert present other (Bool.eq_false_iff.mpr inert)⟩

theorem gate_refused (refused : (ofMember h v).gate = .error defect) :
    v ≠ .nothing ∧ ∃ cause, defect = ⟨[], cause⟩ ∧ Untestable h v cause := by
  have present : v ≠ .nothing := by
    rintro rfl
    cases refused
  refine ⟨present, condition_refused ?_⟩
  unfold gate at refused
  split at refused
  · cases refused
  · obtain refused | ⟨c, -, impossible⟩ := bind_error_iff.mp refused
    · exact refused
    · cases impossible

theorem stepId_refused (refused : (ofMember h v).stepId = .error defect) :
    defect = ⟨[], .stepId v⟩ ∧ ∀ id, v = .str id → id = "" := by
  unfold ofMember at refused
  split at refused
  · cases refused
    exact ⟨rfl, nofun⟩
  · next id =>
    simp only [stepId] at refused
    split at refused
    · next empty =>
      cases refused
      refine ⟨rfl, fun other same => ?_⟩
      cases same
      exact String.isEmpty_iff.mp empty
    · cases refused
  · next other =>
    split at refused <;> cases refused
    · exact ⟨rfl, fun id same => absurd same (other id)⟩
    · exact ⟨rfl, fun id same => absurd same (other id)⟩

theorem signal_refused (refused : (ofMember h v).signal = .error defect) :
    defect = ⟨[], .unknownMarker v⟩ ∧ ∀ signal : Signal, v ≠ .str signal.name := by
  constructor
  · have written := value_ofMember (h := h) v
    unfold Draft.signal at refused
    split at refused
    · cases refused
    · cases refused
    · rw [← written]
      cases refused
      rfl
  · intro signal same
    rw [signal_ofMember.mpr same] at refused
    cases refused

/-! What keeps an item or a row from passing. -/

/-- An item has a flaw of its own, or it is in order and one of the items in its steps has the first flaw. -/
def ItemFault (h : Heap) (inLoop : Bool) (v : Value) (defect : Defect) : Prop :=
  Flawed h inLoop v defect.path defect.cause ∨
    WellShaped h inLoop v ∧ ∃ steps position rest, stepsOf? h v = some steps ∧
      FlawedFirst h (loops h inLoop v) steps position rest defect.cause ∧ defect.path = .steps :: (pathTo position ++ rest)

/-- A value and what was read from it: what is refused is the first flaw, as an item and as a row. -/
structure Judged (h : Heap) (space : Option String) (v : Value) (d : Draft) : Prop where
  item : ∀ inLoop defect, d.item space inLoop = .error defect → ItemFault h inLoop v defect
  rows : ∀ inLoop defect, d.rows space inLoop = .error defect → FirstFlaw h inLoop v defect.path defect.cause

variable {inLoop : Bool} {space : Option String} {a : Script.Addr}

/-- A flaw of the steps is one of the item, as they are no row, or one of an item inside. -/
theorem ItemFault.ofSteps {steps : Value} {path : Path} {cause : Cause} (held : stepsOf? h v = some steps)
    (fault : FirstFlaw h (loops h inLoop v) steps path cause)
    (shaped : (∃ values, rowOf? h steps = some values) → WellShaped h inLoop v) :
    ItemFault h inLoop v ⟨.steps :: path, cause⟩ := by
  obtain ⟨rowless, rfl, rfl⟩ | ⟨position, rest, first, rfl⟩ := fault
  · exact .inl (.steps held rowless)
  · refine .inr ⟨shaped ?_, steps, position, rest, held, first, rfl⟩
    obtain ⟨looped, w, stands, -⟩ := first.flawed
    cases stands with
    | here opened | inside opened => exact ⟨_, opened⟩

theorem gateAt_refused {w : Value} (held : gateOf? h v = some w)
    (refused : Checked.at .gate (ofMember h w).gate = .error defect) : ItemFault h inLoop v defect := by
  obtain ⟨e, failed, rfl⟩ := at_error_iff.mp refused
  obtain ⟨present, cause, rfl, untestable⟩ := gate_refused failed
  exact .inl (.gate held present untestable)

theorem testAt_refused {w : Value} (held : testOf? h v = some w)
    (refused : Checked.at .test (ofMember h w).condition = .error defect) : ItemFault h inLoop v defect := by
  obtain ⟨e, failed, rfl⟩ := at_error_iff.mp refused
  obtain ⟨cause, rfl, untestable⟩ := condition_refused failed
  exact .inl (.test held untestable)

theorem items_refused {values : List Value} {drafts : List Draft}
    (each : List.Forall₂ (fun v d => Recognised h space v d ∧ Judged h space v d) values drafts) {index : Nat}
    (refused : Draft.items space inLoop index drafts = .error defect) :
    ∃ k v e, values[k]? = some v ∧ ItemFault h inLoop v e ∧ defect = ⟨.item (index + k) :: e.path, e.cause⟩ ∧
      ∀ j < k, ∀ u, values[j]? = some u → ∃ i, Spells h (resolveStepId space) inLoop u i := by
  induction each generalizing index defect with
  | nil => cases refused
  | @cons v d values drafts first _ ih =>
    rw [items_cons, bind_error_iff] at refused
    obtain refused | ⟨i, passed, refused⟩ := refused
    · obtain ⟨e, failed, rfl⟩ := at_error_iff.mp refused
      exact ⟨0, v, e, rfl, first.2.item _ _ failed, rfl, fun j less => absurd less (Nat.not_lt_zero j)⟩
    · obtain refused | ⟨_, -, impossible⟩ := bind_error_iff.mp refused
      · obtain ⟨k, w, e, there, fault, rfl, before⟩ := ih refused
        refine ⟨k + 1, w, e, there, fault, by rw [Nat.add_assoc, Nat.add_comm 1], fun j less u here => ?_⟩
        cases j with
        | zero =>
          cases here
          exact ⟨i, (first.1.1 _ _).mp (at_ok_iff.mp passed)⟩
        | succ j => exact before j (Nat.lt_of_succ_lt_succ less) u here
      · cases impossible

theorem pathTo_cons {k : Nat} {position : List Nat} (deeper : position ≠ []) :
    pathTo (k :: position) = .item k :: .steps :: pathTo position := by
  cases position with
  | nil => exact absurd rfl deeper
  | cons => rfl

theorem row_judged {values : List Value} {drafts : List Draft} (opened : rowOf? h v = some values)
    (each : List.Forall₂ (fun v d => Recognised h space v d ∧ Judged h space v d) values drafts) :
    Judged h space v (.row v drafts) := by
  refine ⟨fun inLoop defect refused => ?_, fun inLoop defect refused => ?_⟩
  · cases refused
    exact .inl (.other (not_isItem_of_row opened))
  · obtain ⟨k, w, e, there, fault, rfl, before⟩ := items_refused each refused
    rw [Nat.zero_add]
    right
    obtain flawed | ⟨shaped, steps, position, rest, held, first, path⟩ := fault
    · exact ⟨[k], e.path, .here opened there flawed before, rfl⟩
    · refine ⟨k :: position, rest, .inside opened there shaped held first before, ?_⟩
      obtain ⟨_, _, stands, -⟩ := first.flawed
      rw [pathTo_cons stands.position_ne_nil, path]
      rfl

/-- What is no row is refused as a row for that alone. -/
theorem rowless_judged {d : Draft}
    (item : ∀ inLoop defect, d.item space inLoop = .error defect → ItemFault h inLoop v defect)
    (refused : ∀ inLoop, d.rows space inLoop = refuse (.notRow v)) (rowless : rowOf? h v = none) : Judged h space v d := by
  refine ⟨item, fun inLoop defect stopped => ?_⟩
  rw [refused] at stopped
  cases stopped
  exact .inl ⟨rowless, rfl, rfl⟩

/-- What is read as nothing in particular is refused as what it is. -/
theorem plain_judged {d : Draft} (blank : d = .nothing ∧ v = .nothing ∨ d = .callable v ∨ d = .other v)
    (noItem : ¬IsItem h v) (rowless : rowOf? h v = none) : Judged h space v d := by
  obtain ⟨rfl, rfl⟩ | rfl | rfl := blank
  all_goals
    refine rowless_judged (fun _ _ refused => ?_) (fun _ => rfl) rowless
    cases refused
    exact .inl (.other noItem)

theorem text_judged (id : String) : Judged h space (.str id) (.text id) := by
  refine rowless_judged (fun inLoop defect refused => ?_) (fun _ => rfl) rfl
  obtain refused | ⟨_, -, impossible⟩ := bind_error_iff.mp refused
  · obtain ⟨rfl, unnamed⟩ := stepId_refused (h := h) (v := .str id) refused
    rw [unnamed id rfl]
    exact .inl .nameless
  · cases impossible

/-! Markers. -/

theorem marker_refused {signal : Signal} {w : Value} (held : markerOf? h signal v = some w)
    (refused : markerItem inLoop signal (ofMember h w) = .error defect) : ItemFault h inLoop v defect := by
  cases inLoop with
  | false =>
    cases refused
    exact .inl (.outside held)
  | true =>
    have checked : (do return Item.marker signal (← Checked.at (.marker signal) (ofMember h w).condition)) = .error defect :=
      refused
    obtain stopped | ⟨_, -, impossible⟩ := bind_error_iff.mp checked
    · obtain ⟨e, failed, rfl⟩ := at_error_iff.mp stopped
      obtain ⟨cause, rfl, untestable⟩ := condition_refused failed
      exact .inl (.marker held untestable)
    · cases impossible

theorem typedMarker_judged {fields : Fields} (found : h.object a = .record .controlMarker fields) :
    Judged h space (.ref a)
      (.marker (.ref a) (ofMember h (fields.member "kind")) (ofMember h (fields.member "condition"))) := by
  refine rowless_judged (fun inLoop defect refused => ?_) (fun _ => rfl) (by simp only [rowOf?, found])
  rw [item_marker, bind_error_iff] at refused
  obtain refused | ⟨signal, named, refused⟩ := refused
  · obtain ⟨rfl, unknown⟩ := signal_refused refused
    exact .inl (.kind found unknown)
  · exact marker_refused ((markerOf?_typed found).mpr ⟨signal_ofMember.mp named, rfl⟩) refused

/-! Typed items that hold more. -/

section
variable {fields : Fields}

theorem typedStep_judged (found : h.object a = .record .stepRef fields) :
    Judged h space (.ref a) (.step (.ref a) (ofMember h (fields.member "id")) (ofMember h (fields.member "input"))
      (ofMember h (fields.member "condition"))) := by
  refine rowless_judged (fun inLoop defect refused => ?_) (fun _ => rfl) (by simp only [rowOf?, found])
  rw [item_step, bind_error_iff] at refused
  obtain refused | ⟨id, -, refused⟩ := refused
  · obtain ⟨rfl, unnamed⟩ := stepId_refused refused
    exact .inl (.id ((held?_typed found).mpr ⟨by decide, rfl⟩) unnamed)
  · obtain refused | ⟨_, -, impossible⟩ := bind_error_iff.mp refused
    · exact gateAt_refused ((held?_typed found).mpr ⟨by decide, rfl⟩) refused
    · cases impossible

theorem typedBlock_judged (found : h.object a = .record .subflowBlock fields) {steps : Draft}
    (inside : Judged h space (fields.member "steps") steps) :
    Judged h space (.ref a) (.block (.ref a) steps (ofMember h (fields.member "condition"))) := by
  refine rowless_judged (fun inLoop defect refused => ?_) (fun _ => rfl) (by simp only [rowOf?, found])
  have free : testOf? h (.ref a) = none := by simp [testOf?, held?, found]
  rw [item_block, bind_error_iff] at refused
  obtain refused | ⟨gate, gated, refused⟩ := refused
  · exact gateAt_refused ((held?_typed found).mpr ⟨by decide, rfl⟩) refused
  · obtain refused | ⟨_, -, impossible⟩ := bind_error_iff.mp refused
    · obtain ⟨e, failed, rfl⟩ := at_error_iff.mp refused
      apply ItemFault.ofSteps ((held?_typed found).mpr ⟨by decide, rfl⟩)
      · rw [loops, free, Option.isSome_none, Bool.or_false]
        exact inside.rows _ _ failed
      · intro row
        exact .typed found (by decide) (absurd · (by decide)) ⟨gate, gate_ofMember.mp (at_ok_iff.mp gated)⟩
          (absurd · (by decide)) (fun _ => row)
    · cases impossible

theorem typedLoop_judged (found : h.object a = .record .loopBlock fields) {steps : Draft}
    (inside : Judged h space (fields.member "steps") steps) :
    Judged h space (.ref a)
      (.loop (.ref a) (ofMember h (fields.member "while_")) steps (ofMember h (fields.member "condition"))) := by
  refine rowless_judged (fun inLoop defect refused => ?_) (fun _ => rfl) (by simp only [rowOf?, found])
  have tested : testOf? h (.ref a) = some (fields.member "while_") := (held?_typed found).mpr ⟨by decide, rfl⟩
  rw [item_loop, bind_error_iff] at refused
  obtain refused | ⟨test, tests, refused⟩ := refused
  · exact testAt_refused tested refused
  obtain refused | ⟨gate, gated, refused⟩ := bind_error_iff.mp refused
  · exact gateAt_refused ((held?_typed found).mpr ⟨by decide, rfl⟩) refused
  obtain refused | ⟨_, -, impossible⟩ := bind_error_iff.mp refused
  · obtain ⟨e, failed, rfl⟩ := at_error_iff.mp refused
    apply ItemFault.ofSteps ((held?_typed found).mpr ⟨by decide, rfl⟩)
    · rw [loops, tested, Option.isSome_some, Bool.or_true]
      exact inside.rows _ _ failed
    · intro row
      exact .typed found (by decide) (absurd · (by decide)) ⟨gate, gate_ofMember.mp (at_ok_iff.mp gated)⟩
        (fun _ => ⟨test, condition_ofMember.mp (at_ok_iff.mp tests)⟩) (fun _ => row)
  · cases impossible

end

/-! Tables. -/

section
variable {depth : Nat} {entries : Entries} {members : List (Value × Draft)} {w : Value}
variable (read : List.Forall₂ (Drafted h depth) entries.toList members) (found : h.object a = .dict entries)
include read

theorem keysBeside_eq (names : List String) : keysBeside names members = entries.beside names := by
  rw [keysBeside, Entries.beside, keys_drafted read]

include found

theorem markerTable_refused {signal : Signal} (named : entries.named? signal.name = some w)
    (refused : markerTable inLoop signal (ofMember h w) members = .error defect) : ItemFault h inLoop (.ref a) defect := by
  rw [markerTable, keysBeside_eq read] at refused
  cases more : entries.beside [signal.name] with
  | nil =>
    rw [more] at refused
    have held : markerOf? h signal (.ref a) = some w := by simpa only [markerOf?, found] using named
    exact marker_refused held refused
  | cons key others =>
    rw [more] at refused
    cases refused
    rw [← more]
    exact .inl (.mixed found (by rw [named]; rfl) (by rw [more]; exact List.cons_ne_nil _ _))

theorem stepTable_refused {gate : Option Condition} (named : entries.named? "id" = some w)
    (refused : stepTable space (ofMember h w) gate members = .error defect) : ItemFault h inLoop (.ref a) defect := by
  rw [stepTable, keysBeside_eq read] at refused
  cases more : entries.beside ["id", "input", "condition"] with
  | nil =>
    rw [more] at refused
    obtain stopped | ⟨_, -, impossible⟩ := bind_error_iff.mp
      (show (do return Item.step (resolveStepId space (← (ofMember h w).stepId)) _ gate) = .error defect from refused)
    · obtain ⟨rfl, unnamed⟩ := stepId_refused stopped
      have held : idOf? h (.ref a) = some w := by simpa only [idOf?, held?, found] using named
      exact .inl (.id held unnamed)
    · cases impossible
  | cons key others =>
    rw [more] at refused
    cases refused
    rw [← more]
    exact .inl (.stepFields found (by rw [named]; rfl) (by rw [more]; exact List.cons_ne_nil _ _))

/-- A table that holds some steps, and neither an id nor a marker. -/
theorem blockTable_refused {gate : Option Condition} {steps : Unit → Checked (List Item)}
    (unmarked : ∀ signal : Signal, entries.named? signal.name = none) (unnamed : entries.named? "id" = none)
    (gated : Gates h ((entries.named? "condition").getD .nothing) gate) (row : entries.named? "steps" = some w)
    (inside : ∀ e, steps () = .error e → FirstFlaw h (loops h inLoop (.ref a)) w e.path e.cause)
    (refused : blockTable gate members steps = .error defect) : ItemFault h inLoop (.ref a) defect := by
  rw [blockTable, keysBeside_eq read] at refused
  cases more : entries.beside ["steps", "condition", "while"] with
  | cons key others =>
    rw [more] at refused
    cases refused
    rw [← more]
    exact .inl (.blockFields found unnamed (by rw [row]; rfl) (by rw [more]; exact List.cons_ne_nil _ _))
  | nil =>
    rw [more] at refused
    have held : stepsOf? h (.ref a) = some w := by simpa only [stepsOf?, held?, found] using row
    -- Whatever is tested, the steps come last, and when they are refused all else is in order.
    have below : (∀ v, entries.named? "while" = some v → ∃ c, Tests h v c) →
        Checked.at .steps (steps ()) = .error defect → ItemFault h inLoop (.ref a) defect := by
      intro tests stopped
      obtain ⟨e, failed, rfl⟩ := at_error_iff.mp stopped
      refine .ofSteps held (inside e failed) (fun opened => ?_)
      refine .table found (.block found (beside_eq_nil.mp more) (by rw [row]; rfl)) (by simp [unnamed]) ⟨gate, gated⟩ tests
        (by simp [unmarked]) (fun u same => ?_)
      cases row.symm.trans same
      exact opened
    rw [member?_drafted read (by decide)] at refused
    cases tested : entries.named? "while" with
    | none =>
      rw [tested] at refused below
      obtain stopped | ⟨_, -, impossible⟩ := bind_error_iff.mp
        (show (do return Item.block (← Checked.at .steps (steps ())) gate) = .error defect from refused)
      · exact below (by simp) stopped
      · cases impossible
    | some v =>
      rw [tested] at refused below
      obtain stopped | ⟨test, passed, refused⟩ := bind_error_iff.mp
        (show (do
          let test ← Checked.at .test (ofMember h v).condition
          return Item.loop test (← Checked.at .steps (steps ())) gate) = .error defect from refused)
      · exact testAt_refused (by simpa only [testOf?, held?, found] using tested) stopped
      · obtain stopped | ⟨_, -, impossible⟩ := bind_error_iff.mp refused
        · refine below (fun u same => ?_) stopped
          cases same
          exact ⟨test, condition_ofMember.mp (at_ok_iff.mp passed)⟩
        · cases impossible

theorem tableItem_refused {steps : Unit → Checked (List Item)}
    (inside : ∀ w, entries.named? "steps" = some w → ∀ e, steps () = .error e →
      FirstFlaw h (loops h inLoop (.ref a)) w e.path e.cause)
    (refused : tableItem space inLoop members steps = .error defect) : ItemFault h inLoop (.ref a) defect := by
  cases broken : entries.named? "break" with
  | some w =>
    rw [tableItem_marked read .breakLoop broken (.inr (.inl rfl))] at refused
    have named : entries.named? Signal.breakLoop.name = some w := broken
    exact markerTable_refused read found named refused
  | none =>
    cases continued : entries.named? "continue" with
    | some w =>
      rw [tableItem_marked read .continueLoop continued (.inr (.inr broken))] at refused
      have named : entries.named? Signal.continueLoop.name = some w := continued
      exact markerTable_refused read found named refused
    | none =>
      have unmarked (signal : Signal) : entries.named? signal.name = none := by cases signal <;> assumption
      rw [tableItem_unmarked read broken continued, bind_error_iff] at refused
      obtain stopped | ⟨gate, gated, refused⟩ := refused
      · cases conditioned : entries.named? "condition" with
        | none =>
          rw [conditioned] at stopped
          cases stopped
        | some w =>
          rw [conditioned, Option.getD_some] at stopped
          exact gateAt_refused (by simpa only [gateOf?, held?, found] using conditioned) stopped
      · cases named : entries.named? "id" with
        | some w =>
          rw [named] at refused
          exact stepTable_refused read found named refused
        | none =>
          rw [named] at refused
          cases row : entries.named? "steps" with
          | some w =>
            rw [row] at refused
            have gates := gate_ofMember.mp (at_ok_iff.mp gated)
            exact blockTable_refused read found unmarked named gates row (inside w row) refused
          | none =>
            rw [row] at refused
            cases refused
            exact .inl (.shapeless found unmarked named row)

end

theorem table_judged {depth : Nat} {entries : Entries} {members : List (Value × Draft)} (found : h.object a = .dict entries)
    (read : List.Forall₂ (Drafted h depth) entries.toList members)
    (inside : ∀ w d, ofValue? h depth w = some d → Judged h space w d) : Judged h space (.ref a) (.table (.ref a) members) := by
  refine rowless_judged (fun inLoop defect refused => ?_) (fun _ => rfl) (by simp only [rowOf?, found])
  rw [item_table] at refused
  refine tableItem_refused read found (fun w row e failed => ?_) refused
  obtain ⟨missing, -⟩ | ⟨_, d, same, there, drafted⟩ := member?_steps read
  · cases missing.symm.trans row
  · cases same.symm.trans row
    rw [memberRows_eq there, member?_drafted read (by decide), Option.isSome_map] at failed
    have tested : testOf? h (.ref a) = entries.named? "while" := by simp only [testOf?, held?, found]
    rw [loops, tested]
    exact (inside _ d drafted).rows _ _ failed

/-- What is read from a value is refused with the first flaw of the value. -/
theorem judged {depth : Nat} {d : Draft} (read : ofValue? h depth v = some d) : Judged h space v d := by
  induction depth generalizing v d with
  | zero => cases read
  | succ depth ih =>
    cases Read.of_ofValue? read with
    | text => exact text_judged _
    | row opened each => exact row_judged opened (each.imp (fun _ _ read => ⟨recognised read, ih read⟩))
    | table found each => exact table_judged found each (fun _ _ => ih)
    | step found => exact typedStep_judged found
    | block found inside => exact typedBlock_judged found (ih inside)
    | loop found inside => exact typedLoop_judged found (ih inside)
    | marker found => exact typedMarker_judged found
    | plain blank noItem rowless => exact plain_judged blank noItem rowless

end Draft
end Workflow
