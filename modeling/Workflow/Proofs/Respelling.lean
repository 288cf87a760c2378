import Workflow.Proofs.Akin
import Workflow.Proofs.Grammar
import Workflow.Proofs.Relocations

/-! Schemas that are written at other addresses. A value that spells an item spells the corresponding item wherever its
objects lie, and it is read down to the same depth. -/

namespace Workflow
open Script (Addr Entries Fields Heap Renaming Value)

variable {f : Renaming} {h h' : Heap}

section
variable (renamed : h.Renamed f h')
include renamed

theorem Script.Heap.Renamed.isCallable {v : Value} (covers : f.Covers v) :
    (v.rename f.map).isCallable h' = v.isCallable h := by
  cases v with
  | ref a =>
    obtain ⟨-, same⟩ := renamed.found (Renaming.covers_ref.mp covers)
    rw [Value.rename, Value.isCallable, Value.isCallable, same]
    cases h.object a <;> rfl
  | _ => rfl

/-- The entries of a mapping, at other addresses. -/
theorem Script.Heap.Renamed.dict {a : Addr} {entries : Entries} (there : f.domain a) (found : h.object a = .dict entries) :
    entries.CoveredBy f ∧ h'.object (f.map a) = .dict (Entries.rename entries f.map) := by
  obtain ⟨covers, same⟩ := renamed.found there
  rw [found] at covers same
  exact ⟨Entries.coveredBy_iff.mp covers, same⟩

/-- The fields of a record, at other addresses. -/
theorem Script.Heap.Renamed.record {a : Addr} {kind : Script.RecordKind} {fields : Fields} (there : f.domain a)
    (found : h.object a = .record kind fields) :
    f.CoversAll (fields.toList.map (·.2)) ∧ h'.object (f.map a) = .record kind (fields.map (Script.Field.rename f.map)) := by
  obtain ⟨covers, same⟩ := renamed.found there
  rw [found] at covers same
  exact ⟨Script.Object.coversAll covers, same⟩

omit renamed in
/-- What a mapping holds under a name, at other addresses. -/
theorem Script.Entries.member_sent {entries : Entries} (covered : entries.CoveredBy f) (name : String) :
    f.Sends ((entries.named? name).getD .nothing) (((Entries.rename entries f.map).named? name).getD .nothing) := by
  rw [Entries.named?_rename covered]
  cases found : entries.named? name with
  | none => exact nothing_sent f
  | some v => exact ⟨Entries.get?_covered covered found, rfl⟩

omit renamed in
theorem Script.Entries.named_sent {entries : Entries} {v : Value} {name : String} (covered : entries.CoveredBy f)
    (named : entries.named? name = some v) :
    f.Covers v ∧ (Entries.rename entries f.map).named? name = some (v.rename f.map) := by
  rw [Entries.named?_rename covered, named]
  exact ⟨Entries.get?_covered covered named, rfl⟩

omit renamed in
theorem Script.Entries.Within.elsewhere {entries : Entries} {names : List String} (only : entries.Within names) :
    (Entries.rename entries f.map).Within names := by
  intro renamed member
  obtain ⟨entry, there, rfl⟩ := Array.mem_map.mp member
  obtain ⟨name, among, same⟩ := only entry there
  exact ⟨name, among, by simp [Script.Entry.rename, same, Value.rename]⟩

omit renamed in
/-- What a record holds under a name, at other addresses. -/
theorem Script.Fields.member_sent {fields : Fields} (covers : f.CoversAll (fields.toList.map (·.2))) (name : String) :
    f.Sends (fields.member name) (Fields.member (fields.map (Script.Field.rename f.map)) name) := by
  rw [Fields.member, Fields.member, Fields.get?_rename]
  cases found : Fields.get? fields name with
  | none => exact nothing_sent f
  | some v => exact ⟨covers v (Fields.get?_mem found), rfl⟩

namespace Grammar

theorem Tests.elsewhere {v : Value} {test : Condition} (covers : f.Covers v) (tests : Tests h v test) :
    ∃ test', Tests h' (v.rename f.map) test' ∧ Condition.Sent f test test' := by
  cases tests with
  | source inside visible => exact ⟨_, .source inside visible, .source _⟩
  | call callable =>
    rw [← renamed.isCallable covers] at callable
    exact ⟨_, .call callable, .call ⟨covers, rfl⟩⟩

theorem Gates.elsewhere {v v' : Value} {gate : Option Condition} (sends : f.Sends v v') (gated : Gates h v gate) :
    ∃ gate', Gates h' v' gate' ∧ Gate.Sent f gate gate' := by
  obtain ⟨covers, rfl⟩ := sends
  cases gated with
  | free => exact ⟨_, .free, .none⟩
  | gate tests =>
    obtain ⟨test', tests, sent⟩ := tests.elsewhere renamed covers
    exact ⟨_, .gate tests, .some sent⟩

end Grammar

end

namespace Grammar
variable {resolve : String → String}

mutual

theorem Spells.elsewhere {inLoop : Bool} {v : Value} {i : Item} (spells : Spells h resolve inLoop v i) (renamed : h.Renamed f h')
    (covers : f.Covers v) : ∃ j, Spells h' resolve inLoop (v.rename f.map) j ∧ Item.Sent f i j := by
  cases spells with
  | name present => exact ⟨_, .name present, .step (nothing_sent f) .none⟩
  | step found only named present gated =>
    obtain ⟨covered, found⟩ := renamed.dict (Renaming.covers_ref.mp covers) found
    obtain ⟨gate', gated, opens⟩ := gated.elsewhere renamed (Entries.member_sent covered "condition")
    exact ⟨_, .step found only.elsewhere (Entries.named_sent covered named).2 present gated,
      .step (Entries.member_sent covered "input") opens⟩
  | block found only free inside spelt gated =>
    obtain ⟨covered, found⟩ := renamed.dict (Renaming.covers_ref.mp covers) found
    obtain ⟨gate', gated, opens⟩ := gated.elsewhere renamed (Entries.member_sent covered "condition")
    obtain ⟨covers, inside⟩ := Entries.named_sent covered inside
    obtain ⟨items', spelt, sent⟩ := spelt.elsewhere renamed covers
    have free := (Entries.named?_rename covered "while").trans (by rw [free])
    exact ⟨_, .block found only.elsewhere free inside spelt gated, .block sent opens⟩
  | loop found only tested tests inside spelt gated =>
    obtain ⟨covered, found⟩ := renamed.dict (Renaming.covers_ref.mp covers) found
    obtain ⟨gate', gated, opens⟩ := gated.elsewhere renamed (Entries.member_sent covered "condition")
    obtain ⟨tested', tested⟩ := Entries.named_sent covered tested
    obtain ⟨test', tests, test⟩ := tests.elsewhere renamed tested'
    obtain ⟨covers, inside⟩ := Entries.named_sent covered inside
    obtain ⟨items', spelt, sent⟩ := spelt.elsewhere renamed covers
    exact ⟨_, .loop found only.elsewhere tested tests inside spelt gated, .loop test sent opens⟩
  | marker found only named tests =>
    obtain ⟨covered, found⟩ := renamed.dict (Renaming.covers_ref.mp covers) found
    obtain ⟨covers, named⟩ := Entries.named_sent covered named
    obtain ⟨test', tests, test⟩ := tests.elsewhere renamed covers
    exact ⟨_, .marker found only.elsewhere named tests, .marker test⟩
  | typedStep found named present gated =>
    obtain ⟨covered, found⟩ := renamed.record (Renaming.covers_ref.mp covers) found
    obtain ⟨gate', gated, opens⟩ := gated.elsewhere renamed (Fields.member_sent covered "condition")
    have named := (Fields.member_sent covered "id").2.trans (by rw [named])
    exact ⟨_, .typedStep found named present gated, .step (Fields.member_sent covered "input") opens⟩
  | typedBlock found spelt gated =>
    obtain ⟨covered, found⟩ := renamed.record (Renaming.covers_ref.mp covers) found
    obtain ⟨gate', gated, opens⟩ := gated.elsewhere renamed (Fields.member_sent covered "condition")
    obtain ⟨covers, same⟩ := Fields.member_sent covered "steps"
    obtain ⟨items', spelt, sent⟩ := spelt.elsewhere renamed covers
    rw [← same] at spelt
    exact ⟨_, .typedBlock found spelt gated, .block sent opens⟩
  | typedLoop found tests spelt gated =>
    obtain ⟨covered, found⟩ := renamed.record (Renaming.covers_ref.mp covers) found
    obtain ⟨gate', gated, opens⟩ := gated.elsewhere renamed (Fields.member_sent covered "condition")
    obtain ⟨covers', same'⟩ := Fields.member_sent covered "while_"
    obtain ⟨test', tests, test⟩ := tests.elsewhere renamed covers'
    obtain ⟨covers, same⟩ := Fields.member_sent covered "steps"
    obtain ⟨items', spelt, sent⟩ := spelt.elsewhere renamed covers
    rw [← same] at spelt
    rw [← same'] at tests
    exact ⟨_, .typedLoop found tests spelt gated, .loop test sent opens⟩
  | typedMarker found named tests =>
    obtain ⟨covered, found⟩ := renamed.record (Renaming.covers_ref.mp covers) found
    obtain ⟨covers, same⟩ := Fields.member_sent covered "condition"
    obtain ⟨test', tests, test⟩ := tests.elsewhere renamed covers
    rw [← same] at tests
    have named := (Fields.member_sent covered "kind").2.trans (by rw [named])
    exact ⟨_, .typedMarker found named tests, .marker test⟩

theorem SpellsRow.elsewhere {inLoop : Bool} {v : Value} {items : List Item} (spelt : SpellsRow h resolve inLoop v items)
    (renamed : h.Renamed f h') (covers : f.Covers v) :
    ∃ items', SpellsRow h' resolve inLoop (v.rename f.map) items' ∧ Items.Sent f items items' := by
  cases spelt with
  | @tuple _ values _ spelt =>
    obtain ⟨items', spelt, sent⟩ := spelt.elsewhere renamed covers.items
    refine ⟨items', ?_, sent⟩
    rw [Value.rename, Value.renameAll_eq_map]
    exact .tuple spelt
  | @list _ a values _ found spelt =>
    obtain ⟨covers, same⟩ := renamed.found (Renaming.covers_ref.mp covers)
    rw [found] at covers same
    obtain ⟨items', spelt, sent⟩ := spelt.elsewhere renamed (Renaming.coversAll_iff.mp covers)
    exact ⟨items', .list same (by rw [Array.toList_map]; exact spelt), sent⟩

theorem SpellsAll.elsewhere {inLoop : Bool} {values : List Value} {items : List Item}
    (spelt : SpellsAll h resolve inLoop values items) (renamed : h.Renamed f h') (covers : f.CoversAll values) :
    ∃ items', SpellsAll h' resolve inLoop (values.map (Value.rename f.map)) items' ∧ Items.Sent f items items' := by
  cases spelt with
  | nil => exact ⟨_, .nil, .nil⟩
  | cons first others =>
    obtain ⟨j, first, sent⟩ := first.elsewhere renamed (covers _ List.mem_cons_self)
    obtain ⟨rest, others, sents⟩ := others.elsewhere renamed (fun v member => covers v (List.mem_cons_of_mem _ member))
    exact ⟨_, .cons first others, .cons sent sents⟩

end

end Grammar

/-- What is directly inside of a value, at other addresses. -/
theorem Grammar.parts_elsewhere (renamed : h.Renamed f h') {v : Value} (covers : f.Covers v) :
    Grammar.parts h' (v.rename f.map) = (Grammar.parts h v).map (Value.rename f.map) ∧ f.CoversAll (Grammar.parts h v) := by
  cases v with
  | tuple values => exact ⟨by rw [Value.rename, Value.renameAll_eq_map]; rfl, covers.items⟩
  | ref a =>
    obtain ⟨covers, same⟩ := renamed.found (Renaming.covers_ref.mp covers)
    rw [Value.rename, Grammar.parts, Grammar.parts, same]
    cases found : h.object a with
    | list values =>
      rw [found] at covers
      exact ⟨Array.toList_map .., Renaming.coversAll_iff.mp covers⟩
    | dict entries =>
      rw [found] at covers
      have covered := Entries.coveredBy_iff.mp covers
      refine ⟨?_, fun v member => ?_⟩
      · have steps (entry : Value × Value) :
            (Script.Entry.rename f.map entry).1.sameKey (.str "steps") = entry.1.sameKey (.str "steps") := by
          obtain ⟨key, v⟩ := entry
          cases key <;> rfl
        simp only [Script.Object.rename, Array.toList_map, List.filter_map, List.map_map, Function.comp_def, steps]
        rfl
      · obtain ⟨entry, there, rfl⟩ := List.mem_map.mp member
        exact (covered entry (Array.mem_toList_iff.mp (List.mem_of_mem_filter there))).2
    | record kind fields =>
      rw [found] at covers
      obtain ⟨there, sent⟩ := Fields.member_sent (Script.Object.coversAll covers) "steps"
      cases kind with
      | subflowBlock | loopBlock =>
        simp only [Script.Object.rename, List.map_cons, List.map_nil]
        exact ⟨by rw [sent], fun v member => by rw [List.mem_singleton.mp member]; exact there⟩
      | _ => exact ⟨rfl, List.forall_mem_nil _⟩
    | _ => exact ⟨rfl, List.forall_mem_nil _⟩
  | _ => exact ⟨rfl, List.forall_mem_nil _⟩

/-- A value that can be read down to some depth can be read down to it at other addresses. -/
theorem Draft.ofValue_elsewhere (renamed : h.Renamed f h') (depth : Nat) {v : Value} (covers : f.Covers v)
    (read : (ofValue? h depth v).isSome) : (ofValue? h' depth (v.rename f.map)).isSome := by
  induction depth generalizing v with
  | zero => exact read
  | succ depth ih =>
    obtain ⟨same, covered⟩ := Grammar.parts_elsewhere renamed covers
    rw [readable_succ] at read ⊢
    rw [same]
    intro w member
    obtain ⟨part, there, rfl⟩ := List.mem_map.mp member
    exact ih (covered part there) (read part there)

end Workflow
