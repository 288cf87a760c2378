import Workflow.Proofs.Portable
import Workflow.Proofs.Registered
import Workflow.Proofs.Remaking
import Workflow.Proofs.Sharing

/-! Renamings that are put together: of what is registered, only what can be reached from there, and of two trees of the
same data, the objects at corresponding places. -/

namespace Workflow.Script
open Script (Addr Heap Renaming Value)

variable {f : Renaming} {h k : Heap}

/-- A renaming of some objects only. -/
def Renaming.only (f : Renaming) (S : Addr → Prop) : Renaming where
  map := f.map
  domain a := f.domain a ∧ S a
  injective a b first second same := f.injective a b first.1 second.1 same

theorem Heap.Renamed.only {S : Addr → Prop} (renamed : h.Renamed f k)
    (closed : ∀ a o, S a → h.objects[a]? = some o → ∀ b ∈ o.addresses, S b) : h.Renamed (f.only S) k where
  object a there :=
    have ⟨o, here, covers, found⟩ := renamed.object a there.1
    ⟨o, here, fun b member => ⟨covers b member, closed a o there.2 here b member⟩, found⟩
  idle := renamed.idle

theorem Renaming.Sends.only {S : Addr → Prop} {v v' : Value} (sends : f.Sends v v') (among : v.Among S) : (f.only S).Sends v v' :=
  ⟨fun a member => ⟨sends.1 a member, among a member⟩, sends.2⟩

/-! Two trees of the same data. -/

/-- A renaming that reaches over the objects of two trees. -/
structure Grafted (f g : Renaming) (as bs : List Addr) (h k : Heap) : Prop where
  within : f.Within g
  domain : ∀ a, g.domain a ↔ f.domain a ∨ a ∈ as
  images : ∀ a ∈ as, g.map a ∈ bs
  renamed : h.Renamed g k

/-- Two trees lie apart from what is renamed already. -/
structure Outside (f : Renaming) (as bs : List Addr) : Prop where
  source : ∀ a ∈ as, ¬ f.domain a
  target : ∀ b ∈ bs, ∀ c, f.domain c → f.map c ≠ b

namespace Grafted
variable {g : Renaming} {as bs cs ds : List Addr}

theorem none (renamed : h.Renamed f k) : Grafted f f [] [] h k :=
  ⟨.refl f, fun a => by simp, fun a member => absurd member List.not_mem_nil, renamed⟩

/-- What lies apart from a renaming and from two trees lies apart when they have been grafted. -/
theorem outside (grafted : Grafted f g as bs h k) (apart : Outside f cs ds) (left : ∀ a ∈ as, a ∉ cs) (right : ∀ b ∈ bs, b ∉ ds) :
    Outside g cs ds where
  source c member there := by
    obtain there | there := (grafted.domain c).mp there
    · exact apart.source c member there
    · exact left c there member
  target d member c there := by
    obtain there | there := (grafted.domain c).mp there
    · rw [(grafted.within c there).2]
      exact apart.target d member c there
    · exact fun same => right _ (grafted.images c there) (same ▸ member)

theorem append {l : Renaming} (first : Grafted f g as bs h k) (second : Grafted g l cs ds h k) :
    Grafted f l (as ++ cs) (bs ++ ds) h k where
  within := first.within.trans second.within
  domain a := by rw [second.domain, first.domain, List.mem_append, or_assoc]
  images a member := by
    obtain member | member := List.mem_append.mp member
    · rw [(second.within a ((first.domain a).mpr (.inr member))).2]
      exact List.mem_append_left _ (first.images a member)
    · exact List.mem_append_right _ (second.images a member)
  renamed := second.renamed

/-- The object on top of two trees comes last. -/
theorem top {a b : Addr} {o : Object} (grafted : Grafted f g as bs h k) (apart : Outside f [a] [b]) (left : a ∉ as)
    (right : b ∉ bs) (covers : g.CoversObject o) (here : h.objects[a]? = some o) (found : k.objects[b]? = some (o.rename g.map)) :
    ∃ l, Grafted f l (a :: as) (b :: bs) h k ∧ l.Sends (.ref a) (.ref b) := by
  have beyond := grafted.outside apart (fun c member there => left (List.mem_singleton.mp there ▸ member))
    (fun c member there => right (List.mem_singleton.mp there ▸ member))
  have ⟨l, within, domain, added, renamed⟩ := grafted.renamed.join (beyond.source a List.mem_cons_self)
    (beyond.target b List.mem_cons_self) covers here found
  refine ⟨l, ⟨grafted.within.trans within, fun c => ?_, fun c member => ?_, renamed⟩, ?_⟩
  · rw [domain, grafted.domain, List.mem_cons, or_assoc, or_comm (a := c ∈ as)]
  · obtain rfl | member := List.mem_cons.mp member
    · rw [added]
      exact List.mem_cons_self
    · rw [(within c ((grafted.domain c).mpr (.inr member))).2]
      exact List.mem_cons_of_mem _ (grafted.images c member)
  · exact ⟨Renaming.covers_ref.mpr ((domain a).mpr (.inr rfl)), by rw [Value.rename, added]⟩

end Grafted

theorem Outside.mono {as bs cs ds : List Addr} (outside : Outside f as bs) (left : ∀ a ∈ cs, a ∈ as) (right : ∀ b ∈ ds, b ∈ bs) :
    Outside f cs ds :=
  ⟨fun a member => outside.source a (left a member), fun b member => outside.target b (right b member)⟩

mutual

theorem Heap.Tree.graft {v : Value} {j : Json} {as : List Addr} (tree : h.Tree v j as) {f : Renaming} {v' : Value}
    {bs : List Addr} (tree' : k.Tree v' j bs) (outside : Outside f as bs) (renamed : h.Renamed f k) :
    ∃ g, Grafted f g as bs h k ∧ g.Sends v v' := by
  cases tree with
  | null =>
    cases tree'
    exact ⟨f, .none renamed, Value.isBare.sends (v := .nothing) rfl f⟩
  | bool b =>
    cases tree'
    exact ⟨f, .none renamed, Value.isBare.sends (v := .bool b) rfl f⟩
  | int n =>
    cases tree'
    exact ⟨f, .none renamed, Value.isBare.sends (v := .int n) rfl f⟩
  | float x =>
    cases tree'
    exact ⟨f, .none renamed, Value.isBare.sends (v := .float x) rfl f⟩
  | str s =>
    cases tree'
    exact ⟨f, .none renamed, Value.isBare.sends (v := .str s) rfl f⟩
  | @array a items _ as found inside apart =>
    cases tree' with
    | @array b items' _ bs found' inside' apart' =>
      obtain ⟨g, grafted, covers, same⟩ := inside.graft inside'
        (outside.mono (fun _ => List.mem_cons_of_mem _) (fun _ => List.mem_cons_of_mem _)) renamed
      have object : (Object.list items).rename g.map = .list items' := by
        rw [Object.rename, Object.list.injEq, ← Array.toList_inj, Array.toList_map, ← same]
      rw [← object] at found'
      exact grafted.top (outside.mono (by simp) (by simp)) apart apart' (Renaming.coversAll_iff.mpr covers) found found'
  | @object a entries _ as found inside apart =>
    cases tree' with
    | @object b entries' _ bs found' inside' apart' =>
      obtain ⟨g, grafted, covers, same⟩ := inside.graft inside'
        (outside.mono (fun _ => List.mem_cons_of_mem _) (fun _ => List.mem_cons_of_mem _)) renamed
      have object : (Object.dict entries).rename g.map = .dict entries' := by
        rw [Object.rename, Object.dict.injEq, ← Array.toList_inj, Array.toList_map, ← same]
      rw [← object] at found'
      refine grafted.top (outside.mono (by simp) (by simp)) apart apart' (Entries.coveredBy_iff.mpr ?_) found found'
      exact fun entry member => covers entry (Array.mem_toList_iff.mpr member)

theorem Heap.Trees.graft {vs : List Value} {js : List Json} {as : List Addr} (trees : h.Trees vs js as) {f : Renaming}
    {vs' : List Value} {bs : List Addr} (trees' : k.Trees vs' js bs) (outside : Outside f as bs) (renamed : h.Renamed f k) :
    ∃ g, Grafted f g as bs h k ∧ g.CoversAll vs ∧ vs' = vs.map (Value.rename g.map) := by
  cases trees with
  | nil =>
    cases trees'
    exact ⟨f, .none renamed, fun v member => absurd member List.not_mem_nil, rfl⟩
  | cons first rest apart =>
    cases trees' with
    | cons first' rest' apart' =>
      obtain ⟨g, grafted, covers, rfl⟩ := first.graft first'
        (outside.mono (fun _ => List.mem_append_left _) (fun _ => List.mem_append_left _)) renamed
      have beyond := grafted.outside (outside.mono (fun _ => List.mem_append_right _) (fun _ => List.mem_append_right _)) apart
        apart'
      obtain ⟨l, grafted', covers', rfl⟩ := rest.graft rest' beyond grafted.renamed
      refine ⟨l, grafted.append grafted', ?_, ?_⟩
      · exact List.forall_mem_cons.mpr ⟨covers.mono grafted'.within, covers'⟩
      · rw [List.map_cons, grafted'.within.rename covers]

theorem Heap.Branches.graft {entries : List (Value × Value)} {ms : List (String × Json)} {as : List Addr}
    (branches : h.Branches entries ms as) {f : Renaming} {entries' : List (Value × Value)} {bs : List Addr}
    (branches' : k.Branches entries' ms bs) (outside : Outside f as bs) (renamed : h.Renamed f k) :
    ∃ g, Grafted f g as bs h k ∧ (∀ entry ∈ entries, g.Covers entry.1 ∧ g.Covers entry.2) ∧
      entries' = entries.map (Entry.rename g.map) := by
  cases branches with
  | nil =>
    cases branches'
    exact ⟨f, .none renamed, fun v member => absurd member List.not_mem_nil, rfl⟩
  | @cons name v _ _ _ _ _ first rest apart =>
    cases branches' with
    | cons first' rest' apart' =>
      obtain ⟨g, grafted, covers, rfl⟩ := first.graft first'
        (outside.mono (fun _ => List.mem_append_left _) (fun _ => List.mem_append_left _)) renamed
      have beyond := grafted.outside (outside.mono (fun _ => List.mem_append_right _) (fun _ => List.mem_append_right _)) apart
        apart'
      obtain ⟨l, grafted', covers', rfl⟩ := rest.graft rest' beyond grafted.renamed
      refine ⟨l, grafted.append grafted', ?_, ?_⟩
      · have key := Value.isBare.covers (v := .str name) rfl l
        exact List.forall_mem_cons.mpr ⟨⟨key, covers.mono grafted'.within⟩, covers'⟩
      · rw [List.map_cons, Entry.rename, grafted'.within.rename covers]
        rfl

end

end Workflow.Script

/-! What is registered, apart from anything else. -/

namespace Workflow
open Script (Addr Heap Renaming Value)

variable {f : Renaming} {S : Addr → Prop}

theorem Condition.Sent.only {c d : Condition} (sent : Condition.Sent f c d) (among : c.value.Among S) :
    Condition.Sent (f.only S) c d := by
  cases sent with
  | source text => exact .source text
  | call sends => exact .call (sends.only among)

theorem Gate.Sent.only {gate gate' : Option Condition} (sent : Gate.Sent f gate gate')
    (among : ∀ v ∈ (gate.map Condition.value).toList, v.Among S) : Gate.Sent (f.only S) gate gate' := by
  cases sent with
  | none => exact .none
  | some condition => exact .some (condition.only (among _ (by simp)))

mutual

theorem Item.Sent.only {i j : Item} (sent : Item.Sent f i j) (among : ∀ v ∈ i.values, v.Among S) : Item.Sent (f.only S) i j := by
  cases sent with
  | step sends opens =>
    obtain ⟨first, gate⟩ := List.forall_mem_cons.mp among
    exact .step (sends.only first) (opens.only gate)
  | block inside opens =>
    obtain ⟨gate, items⟩ := List.forall_mem_append.mp among
    exact .block (inside.only items) (opens.only gate)
  | loop condition inside opens =>
    obtain ⟨test, rest⟩ := List.forall_mem_cons.mp among
    obtain ⟨gate, items⟩ := List.forall_mem_append.mp rest
    exact .loop (condition.only test) (inside.only items) (opens.only gate)
  | marker condition => exact .marker (condition.only (among _ List.mem_cons_self))

theorem Items.Sent.only {items items' : List Item} (sent : Items.Sent f items items')
    (among : ∀ v ∈ Item.valuesOf items, v.Among S) :
    Items.Sent (f.only S) items items' := by
  cases sent with
  | nil => exact .nil
  | cons first others =>
    obtain ⟨here, rest⟩ := List.forall_mem_append.mp among
    exact .cons (first.only here) (others.only rest)

end

theorem Handler.Sent.only {k l : Handler} (sent : Handler.Sent f k l) (among : k.value.Among S) :
    Handler.Sent (f.only S) k l := by
  cases sent with
  | source text => exact .source text
  | call sends => exact .call (sends.only among)

theorem Step.Sent.only {s s' : Step} (sent : Step.Sent f s s') (among : ∀ v ∈ s.values, v.Among S) :
    Step.Sent (f.only S) s s' where
  id := sent.id
  handler := sent.handler.only (among _ List.mem_cons_self)
  input := sent.input.only (among _ (by simp [Step.values]))
  globals := by
    obtain ⟨covered, same⟩ := sent.globals
    refine ⟨fun entry member => ?_, same⟩
    obtain ⟨key, value⟩ := covered entry member
    have inside (v : Value) (part : v = entry.1 ∨ v = entry.2) : v.Among S := by
      refine among v (List.mem_cons_of_mem _ (List.mem_cons_of_mem _ ?_))
      refine List.mem_flatMap.mpr ⟨entry, Array.mem_toList_iff.mpr member, ?_⟩
      simpa using part
    exact ⟨fun a named => ⟨key a named, inside _ (.inl rfl) a named⟩, fun a named => ⟨value a named, inside _ (.inr rfl) a named⟩⟩

/-- What is registered corresponds by what can be reached from there. -/
theorem Registry.Sent.only {r r' : Registry} (sent : Registry.Sent f r r') (among : ∀ v ∈ r.values, v.Among S) :
    Registry.Sent (f.only S) r r' where
  steps := by
    refine ((List.forall₂_and_left (p := (· ∈ r.steps)) _ _).mpr ⟨fun _ member => member, sent.steps⟩).imp ?_
    rintro s s' ⟨member, step⟩
    exact step.only (fun v inside => among v (List.mem_append_left _ (List.mem_flatMap.mpr ⟨s, member, inside⟩)))
  schemas := by
    refine ((List.forall₂_and_left (p := (· ∈ r.schemas)) _ _).mpr ⟨fun _ member => member, sent.schemas⟩).imp ?_
    rintro s s' ⟨member, schema⟩
    have inside (v : Value) (part : v ∈ s.id :: s.space :: Item.valuesOf s.items) : v.Among S :=
      among v (List.mem_append_right _ (List.mem_flatMap.mpr ⟨s, member, part⟩))
    exact ⟨schema.id.only (inside _ List.mem_cons_self), schema.items.only (fun v part => inside v (by simp [part]))⟩

/-- What is registered in a world is where it was, in a world that spares it. -/
theorem World.Renamed.spared {v₀ v w : World} (renamed : World.Renamed f v₀ w) (registry : v.registry = v₀.registry)
    (spares : Spares v₀.Holds v₀ v) (sound : v.evaluator.Sound) (idle : v.heap.handling = []) :
    World.Renamed (f.only v₀.Holds) v w where
  heap := by
    have closed : ∀ a o, v₀.Holds a → v₀.heap.objects[a]? = some o → ∀ b ∈ o.addresses, v₀.Holds b := by
      rintro a o ⟨u, member, reaches⟩ found b named
      exact ⟨u, member, .deeper reaches (by rwa [Heap.object_of_getElem? found])⟩
    have only := renamed.heap.only closed
    refine ⟨fun a there => ?_, idle, renamed.heap.idle.2⟩
    obtain ⟨o, found, covers, placed⟩ := only.object a there
    exact ⟨o, spares a o there.2 found, covers, placed⟩
  registry := by
    rw [registry]
    exact renamed.registry.only (fun v member a named => ⟨v, member, .here named⟩)
  evaluators := ⟨sound, renamed.evaluators.2⟩

end Workflow
