import Workflow.Proofs.Keeping
import Workflow.Proofs.Renderings

/-! What acts do at other addresses. An object that is made in two heaps gets an address in each of them, and the one
becomes the other from then on. -/

namespace Workflow.Script

/-! Objects under renaming. -/

section
variable {f g : Addr → Addr}

theorem map_congr_addresses {values : List Value} (same : ∀ a ∈ Value.addressesOf values, g a = f a) :
    values.map (Value.rename g) = values.map (Value.rename f) := by
  rw [← Value.renameAll_eq_map, ← Value.renameAll_eq_map, Value.renameAll_congr same]

theorem fields_congr_addresses {fields : List (String × Value)} (same : ∀ a ∈ Value.addressesOf (fields.map (·.2)), g a = f a) :
    fields.map (Field.rename g) = fields.map (Field.rename f) := by
  refine List.map_congr_left (fun field member => ?_)
  have value : field.2.rename g = field.2.rename f := Value.rename_congr (fun a named =>
    same a (Value.mem_addressesOf.mpr ⟨_, List.mem_map_of_mem member, named⟩))
  simp only [Field.rename, value]

theorem addressesOf_append (left right : List Value) :
    Value.addressesOf (left ++ right) = Value.addressesOf left ++ Value.addressesOf right := by
  induction left with
  | nil => rfl
  | cons v rest ih => simp only [List.cons_append, Value.addressesOf, ih, List.append_assoc]

theorem Function.rename_congr {k : Function} (same : ∀ a ∈ k.addresses, g a = f a) : k.rename g = k.rename f := by
  simp only [Function.addresses, addressesOf_append] at same
  have defaults := map_congr_addresses (fun a (named : a ∈ Value.addressesOf k.defaults) => same a (by simp [named]))
  have keywords : k.keywordDefaults.map (Option.map (Value.rename g)) = k.keywordDefaults.map (Option.map (Value.rename f)) := by
    refine List.map_congr_left (fun found member => ?_)
    cases found with
    | none => rfl
    | some v =>
      have value : v.rename g = v.rename f := Value.rename_congr (fun a named => same a (by
        refine List.mem_cons_of_mem _ (List.mem_append_right _ (Value.mem_addressesOf.mpr ⟨v, ?_, named⟩))
        exact List.mem_filterMap.mpr ⟨some v, member, rfl⟩))
      simp only [Option.map_some, value]
  simp only [Function.rename, defaults, keywords, same k.scope List.mem_cons_self]

theorem Frame.rename_congr {k : Frame} (same : ∀ a ∈ k.addresses, g a = f a) : k.rename g = k.rename f := by
  simp only [Frame.addresses, List.map_append, addressesOf_append] at same
  have values : k.values.map (Field.rename g) = k.values.map (Field.rename f) :=
    fields_congr_addresses (fun a named => same a (by simp [named]))
  have builtins : k.builtins.map (Field.rename g) = k.builtins.map (Field.rename f) :=
    fields_congr_addresses (fun a named => same a (by simp [named]))
  have outer : k.outer.map g = k.outer.map f := by
    cases found : k.outer with
    | none => rfl
    | some a => rw [Option.map_some, Option.map_some, same a (by simp [found])]
  simp only [Frame.rename, values, builtins, outer]

theorem Iterator.rename_congr {it : Iterator} (same : ∀ a ∈ it.addresses, g a = f a) : it.rename g = it.rename f := by
  cases it with
  | list source position => simp only [Iterator.rename, same source (List.mem_singleton.mpr rfl)]
  | tuple rest => simp only [Iterator.rename, map_congr_addresses same]
  | entries part source size position => simp only [Iterator.rename, same source (List.mem_singleton.mpr rfl)]
  | set rest source size =>
    have values := map_congr_addresses (fun a (named : a ∈ Value.addressesOf rest) => same a (List.mem_cons_of_mem _ named))
    simp only [Iterator.rename, values, same source List.mem_cons_self]
  | enumerate inner count => simp only [Iterator.rename, same inner (List.mem_singleton.mpr rfl)]
  | zip inners =>
    have each : inners.map g = inners.map f := List.map_congr_left same
    simp only [Iterator.rename, each]
  | generator k =>
    have cursors := List.map_congr_left (l := k.cursors) (fun a named => same a (List.mem_cons_of_mem _ named))
    simp only [Iterator.rename, cursors, same k.frame List.mem_cons_self]
  | _ => rfl

theorem Object.rename_congr {o : Object} (same : ∀ a ∈ o.addresses, g a = f a) : o.rename g = o.rename f := by
  have each {values : List Value} (same : ∀ a ∈ Value.addressesOf values, g a = f a) :
      ∀ v ∈ values, v.rename g = v.rename f :=
    fun v member => Value.rename_congr (fun a named => same a (Value.mem_addressesOf.mpr ⟨v, member, named⟩))
  cases o with
  | list items =>
    simp only [Object.rename, Array.map_congr_left (fun v member => each same v (Array.mem_toList_iff.mpr member))]
  | dict entries =>
    refine congrArg Object.dict (Array.map_congr_left (fun entry member => ?_))
    obtain ⟨key, value⟩ := mem_entryValues (Array.mem_toList_iff.mpr member)
    simp only [Entry.rename, each same _ key, each same _ value]
  | set items =>
    simp only [Object.rename, Array.map_congr_left (fun v member => each same v (Array.mem_toList_iff.mpr member))]
  | record kind fields =>
    refine congrArg (Object.record kind) (Array.map_congr_left (fun field member => ?_))
    simp only [Field.rename, each same _ (List.mem_map_of_mem (Array.mem_toList_iff.mpr member))]
  | error c args fields =>
    simp only [Object.addresses, addressesOf_append] at same
    have given := map_congr_addresses (fun a (named : a ∈ Value.addressesOf args) => same a (List.mem_append_left _ named))
    have own : fields.map (Field.rename g) = fields.map (Field.rename f) := by
      refine Array.map_congr_left (fun field member => ?_)
      have value := each (fun a named => same a (List.mem_append_right _ named)) _
        (List.mem_map_of_mem (f := Prod.snd) (Array.mem_toList_iff.mpr member))
      simp only [Field.rename, value]
    simp only [Object.rename, given, own]
  | function k => simp only [Object.rename, Function.rename_congr same]
  | frame k => simp only [Object.rename, Frame.rename_congr same]
  | supplied k => rfl
  | awaitable k args => simp only [Object.rename, map_congr_addresses same]
  | iterator it => simp only [Object.rename, Iterator.rename_congr same]
  | view part source => simp only [Object.rename, same source (List.mem_singleton.mpr rfl)]

end

theorem Renaming.CoversObject.mono {f g : Renaming} {o : Object} (covers : f.CoversObject o) (within : f.Within g) :
    g.CoversObject o := fun a member => (within a (covers a member)).1

theorem Renaming.Within.renameObject {f g : Renaming} (within : f.Within g) {o : Object} (covers : f.CoversObject o) :
    o.rename g.map = o.rename f.map :=
  Object.rename_congr (fun a member => (within a (covers a member)).2)

/-! Heaps under renaming. -/

/-- A renaming that also takes one new address to another one. -/
def Renaming.with (f : Renaming) (a b : Addr) (outside : ∀ c, f.domain c → f.map c ≠ b) : Renaming where
  map c := if c = a then b else f.map c
  domain c := f.domain c ∨ c = a
  injective := by
    intro c d first second same
    by_cases here : c = a <;> by_cases there : d = a
    · rw [here, there]
    · rw [if_pos here, if_neg there] at same
      exact absurd same.symm (outside d (second.resolve_right there))
    · rw [if_neg here, if_pos there] at same
      exact absurd same (outside c (first.resolve_right here))
    · rw [if_neg here, if_neg there] at same
      exact f.injective c d (first.resolve_right here) (second.resolve_right there) same

namespace Heap.Renamed
variable {f : Renaming} {h h' k : Heap} (renamed : h.Renamed f h')
include renamed

theorem inside {a : Addr} (there : f.domain a) : a < h.objects.size ∧ f.map a < h'.objects.size := by
  obtain ⟨o, here, -, found⟩ := renamed.object a there
  exact ⟨(Array.getElem?_eq_some_iff.mp here).1, (Array.getElem?_eq_some_iff.mp found).1⟩

theorem left (grows : h.Grows k) : k.Renamed f h' where
  object a there :=
    have ⟨o, here, covers, found⟩ := renamed.object a there
    ⟨o, grows.objects a o here, covers, found⟩
  idle := ⟨grows.handling.trans renamed.idle.1, renamed.idle.2⟩

theorem right (grows : h'.Grows k) : h.Renamed f k where
  object a there :=
    have ⟨o, here, covers, found⟩ := renamed.object a there
    ⟨o, here, covers, grows.objects _ _ found⟩
  idle := ⟨renamed.idle.1, grows.handling.trans renamed.idle.2⟩

/-- An object that is in both heaps, and is renamed as well from now on. -/
theorem join {a b : Addr} {o : Object} (new : ¬ f.domain a) (outside : ∀ c, f.domain c → f.map c ≠ b)
    (covers : f.CoversObject o) (here : h.objects[a]? = some o) (found : h'.objects[b]? = some (o.rename f.map)) :
    ∃ g : Renaming, f.Within g ∧ (∀ c, g.domain c ↔ f.domain c ∨ c = a) ∧ g.map a = b ∧ h.Renamed g h' := by
  let g := f.with a b outside
  have within : f.Within g := fun c there => ⟨.inl there, if_neg (fun same : c = a => new (same ▸ there))⟩
  have added : g.map a = b := if_pos rfl
  refine ⟨g, within, fun _ => .rfl, added, ?_, renamed.idle⟩
  rintro c (there | rfl)
  · obtain ⟨o', here', covers', found'⟩ := renamed.object c there
    refine ⟨o', here', covers'.mono within, ?_⟩
    rw [(within c there).2, within.renameObject covers']
    exact found'
  · refine ⟨o, here, covers.mono within, ?_⟩
    rw [added, within.renameObject covers]
    exact found

/-- An object that is made in both heaps. -/
theorem alloc {o : Object} (covers : f.CoversObject o) :
    ∃ g : Renaming, f.Within g ∧ (∀ a, g.domain a ↔ f.domain a ∨ a = h.objects.size) ∧
      g.map h.objects.size = h'.objects.size ∧ (h.alloc o).2.Renamed g (h'.alloc (o.rename f.map)).2 := by
  have grown : (h.alloc o).2.Renamed f (h'.alloc (o.rename f.map)).2 :=
    (renamed.left (.alloc h o)).right (.alloc h' _)
  exact grown.join (fun there => Nat.lt_irrefl _ (renamed.inside there).1) (fun c there => Nat.ne_of_lt (renamed.inside there).2)
    covers (h.alloc_found o) (h'.alloc_found _)

/-- An object that is written in both heaps. -/
theorem write {a : Addr} {o : Object} (there : f.domain a) (covers : f.CoversObject o) :
    (h.write a o).Renamed f (h'.write (f.map a) (o.rename f.map)) := by
  refine ⟨fun b member => ?_, renamed.idle⟩
  obtain ⟨o', here, covers', found⟩ := renamed.object b member
  have inside := renamed.inside there
  by_cases same : b = a
  · subst same
    exact ⟨o, by simp [Heap.write, inside.1], covers, by simp [Heap.write, inside.2]⟩
  · have apart : f.map a ≠ f.map b := fun equal => same (f.injective b a member there equal.symm)
    refine ⟨o', ?_, covers', ?_⟩
    · rw [Heap.write, Array.getElem?_setIfInBounds_ne (Ne.symm same)]
      exact here
    · rw [Heap.write, Array.getElem?_setIfInBounds_ne apart]
      exact found

end Heap.Renamed

mutual

theorem Heap.Renamed.unhashable? {f : Renaming} {h h' : Heap} (renamed : h.Renamed f h') {v : Value} (covers : f.Covers v) :
    (v.rename f.map).unhashable? h' = v.unhashable? h := by
  cases v with
  | tuple items =>
    simp only [Value.rename, Value.unhashable?]
    exact renamed.firstUnhashable? covers.items
  | bound m receiver =>
    simp only [Value.rename, Value.unhashable?]
    exact renamed.unhashable? (v := receiver) covers
  | ref a =>
    obtain ⟨-, same⟩ := renamed.found (Renaming.covers_ref.mp covers)
    simp only [Value.rename, Value.unhashable?, same]
    cases h.object a with
    | record kind fields => cases kind <;> rfl
    | view part source => cases part <;> rfl
    | _ => rfl
  | _ => rfl

theorem Heap.Renamed.firstUnhashable? {f : Renaming} {h h' : Heap} (renamed : h.Renamed f h') {items : List Value}
    (covers : f.CoversAll items) :
    Value.firstUnhashable? h' (Value.renameAll f.map items) = Value.firstUnhashable? h items := by
  cases items with
  | nil => rfl
  | cons v rest =>
    have first := renamed.unhashable? (covers v List.mem_cons_self)
    have others := renamed.firstUnhashable? (show f.CoversAll rest from fun w member => covers w (List.mem_cons_of_mem _ member))
    simp only [Value.renameAll, Value.firstUnhashable?, first, others]

end

/-! Acts. -/

/-- Acts stop alike if the same error is raised, or if both are spent. -/
inductive Stop.Sent (f : Renaming) : Stop → Stop → Prop where
  | raised {e e'} (sends : f.Sends e e') : Sent f (.raised e) (.raised e')
  | exhausted : Sent f .exhausted .exhausted

/-- Heaps that correspond, at other addresses, and still do when an object is made in both of them. -/
structure Heap.Housing (R : Renaming → Heap → Heap → Prop) : Prop where
  renamed {f h h'} : R f h h' → h.Renamed f h'
  made {f h h' o} : R f h h' → f.CoversObject o → ∃ g : Renaming, f.Within g ∧
    (∀ a, g.domain a ↔ f.domain a ∨ a = h.objects.size) ∧ g.map h.objects.size = h'.objects.size ∧
    R g (h.alloc o).2 (h'.alloc (o.rename f.map)).2

theorem Heap.Renamed.housing : Heap.Housing Heap.Renamed where
  renamed := id
  made renamed covers := renamed.alloc covers

/-! Acts that are about objects do alike wherever heaps correspond. -/

namespace Heap.Housing
variable {R : Renaming → Heap → Heap → Prop} (housing : Heap.Housing R) {f : Renaming} {like : Renaming → α → β → Prop}
include housing

theorem alloc {o : Object} (covers : f.CoversObject o) :
    Akin R Stop.Sent f (fun g a b => g.domain a ∧ b = g.map a) (Act.alloc o) (Act.alloc (o.rename f.map)) := by
  intro h h' heaps
  obtain ⟨g, within, domain, new, heaps⟩ := housing.made heaps covers
  exact .ok within ⟨(domain _).mpr (.inr rfl), new.symm⟩ heaps

theorem allocate {o : Object} (covers : f.CoversObject o) :
    Akin R Stop.Sent f Renaming.Sends (Act.allocate o) (Act.allocate (o.rename f.map)) := by
  intro h h' heaps
  obtain ⟨g, within, domain, new, heaps⟩ := housing.made heaps covers
  exact .ok within ⟨Renaming.covers_ref.mpr ((domain _).mpr (.inr rfl)), by rw [Value.rename, new]⟩ heaps

theorem newDict {entries : Entries} (covered : entries.CoveredBy f) :
    Akin R Stop.Sent f Renaming.Sends (Act.newDict entries) (Act.newDict (Entries.rename entries f.map)) :=
  housing.allocate (Entries.coveredBy_iff.mpr covered)

theorem fail (c : ErrorClass) (message : String) :
    Akin R Stop.Sent f like (Act.fail c message : Act α) (Act.fail c message : Act β) := by
  have same : (Object.error c [.str message] #[]).rename f.map = .error c [.str message] #[] := by
    simp [Object.rename, Value.rename]
  have made := housing.allocate (f := f) (o := .error c [.str message] #[]) (fun a member => absurd member List.not_mem_nil)
  rw [same] at made
  exact made.bind (fun g a b within sends => .throw (.raised sends))

theorem object {a : Addr} (there : f.domain a) :
    Akin R Stop.Sent f (fun g o o' => g.CoversObject o ∧ o' = o.rename g.map) (Act.object a) (Act.object (f.map a)) :=
  fun _ _ heaps => .ok (.refl f) ((housing.renamed heaps).found there) heaps

theorem rendered {write write' : Heap → Except RenderFault String}
    (same : ∀ h h', h.Renamed f h' → SameKind (write h) (write' h')) :
    Akin R Stop.Sent f Whatever (Act.rendered write) (Act.rendered write') := by
  intro h h' heaps
  have kind := same h h' (housing.renamed heaps)
  simp only [Act.rendered, Bind.bind, EStateM.bind, get_result]
  generalize write h = x, write' h' = y at kind
  cases kind with
  | ok s t => exact .ok (.refl f) trivial heaps
  | error fault => cases fault <;> exact housing.fail _ _ h h' heaps

theorem plain {v v' : Value} (sends : f.Sends v v') : Akin R Stop.Sent f Whatever (Act.plain v) (Act.plain v') := by
  obtain ⟨covers, rfl⟩ := sends
  exact housing.rendered (fun h h' renamed => renamed.plain covers)

end Heap.Housing

/-- Two acts do the same, at other addresses. -/
abbrev Act.Matches (f : Renaming) (like : Renaming → α → β → Prop) (x : Act α) (y : Act β) : Prop :=
  Akin Heap.Renamed Stop.Sent f like x y

theorem Act.getAttribute_found {v u : Value} {h : Heap} {name : String} (found : v.attribute? h name = some u) :
    Act.getAttribute v name h = .ok u h := by
  simp only [Act.getAttribute, Bind.bind, EStateM.bind, get_result, found]
  rfl

theorem Act.getAttribute_missing {v : Value} {h : Heap} {name : String} (missing : v.attribute? h name = none)
    (plain : name ≠ "__dict__") : Act.getAttribute v name h = Act.noAttribute v name h := by
  simp only [Act.getAttribute, Bind.bind, EStateM.bind, get_result, missing]
  cases v with
  | ref a =>
    simp only [EStateM.bind, Act.object]
    cases h.object a with
    | record kind fields => simp only [beq_eq_false_iff_ne.mpr plain, Bool.false_eq_true, if_false]
    | _ => rfl
  | _ => rfl

namespace Act.Matches
variable {f : Renaming} {like : Renaming → α → β → Prop}

theorem newDict {entries : Entries} (covered : entries.CoveredBy f) :
    Matches f Renaming.Sends (Act.newDict entries) (Act.newDict (Entries.rename entries f.map)) :=
  Heap.Renamed.housing.newDict covered

theorem fail (c : ErrorClass) (message : String) : Matches f like (Act.fail c message) (Act.fail c message) :=
  Heap.Renamed.housing.fail c message

theorem object {a : Addr} (there : f.domain a) :
    Matches f (fun g o o' => g.CoversObject o ∧ o' = o.rename g.map) (Act.object a) (Act.object (f.map a)) :=
  Heap.Renamed.housing.object there

theorem truth {v v' : Value} (sends : f.Sends v v') : Matches f (fun _ b c => c = b) (Act.truth v) (Act.truth v') := by
  obtain ⟨covers, rfl⟩ := sends
  exact fun h h' renamed => .ok (.refl f) (renamed.truth covers) renamed

theorem typeName {v v' : Value} (sends : f.Sends v v') :
    Matches f (fun _ s t => t = s) (Act.typeName v) (Act.typeName v') := by
  obtain ⟨covers, rfl⟩ := sends
  exact fun h h' renamed => .ok (.refl f) (renamed.typeName covers) renamed

theorem plain {v v' : Value} (sends : f.Sends v v') : Matches f Whatever (Act.plain v) (Act.plain v') :=
  Heap.Renamed.housing.plain sends

theorem noAttribute {v u : Value} (sends : f.Sends v u) (name : String) :
    Matches f like (Act.noAttribute v name) (Act.noAttribute u name) := by
  have shown : Matches f like (do Act.fail .attribute s!"'{← Act.typeName v}' object has no attribute '{name}'" : Act α)
      (do Act.fail .attribute s!"'{← Act.typeName u}' object has no attribute '{name}'" : Act β) :=
    (typeName sends).bind (fun g s t within same => by rw [same]; exact fail _ _)
  obtain ⟨covers, rfl⟩ := sends
  cases v with
  | type c => exact fail _ _
  | _ => exact shown

theorem getAttribute {v v' : Value} (sends : f.Sends v v') {name : String} (plain : name ≠ "__dict__") :
    Matches f Renaming.Sends (Act.getAttribute v name) (Act.getAttribute v' name) := by
  intro h h' renamed
  obtain ⟨covers, rfl⟩ := sends
  obtain ⟨taken, covered⟩ := renamed.attribute? covers name
  cases found : v.attribute? h name with
  | some u =>
    rw [found] at taken
    rw [getAttribute_found found, getAttribute_found taken]
    exact .ok (.refl f) ⟨covered u found, rfl⟩ renamed
  | none =>
    rw [found] at taken
    rw [getAttribute_missing found plain, getAttribute_missing taken plain]
    exact noAttribute ⟨covers, rfl⟩ name h h' renamed

end Act.Matches

end Workflow.Script
