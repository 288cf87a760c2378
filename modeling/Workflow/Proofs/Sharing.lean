import Workflow.Proofs.Flaws
import Workflow.Proofs.Written

/-! Heaps that have some objects in common, with all that these are made of. A value that lies among them is read alike in
each of the heaps. -/

namespace Workflow.Script

/-- What a value is made of lies among some objects. -/
def Value.Among (S : Addr → Prop) (v : Value) : Prop := ∀ a ∈ v.addresses, S a

/-- A heap has some objects of another one as they are there. All that they are made of is among them. -/
structure Heap.Shares (S : Addr → Prop) (h k : Heap) : Prop where
  same : ∀ a, S a → ∃ o, h.objects[a]? = some o ∧ k.objects[a]? = some o
  closed : ∀ a, S a → ∀ b ∈ (h.object a).addresses, S b

theorem allAgree?_congr {test test' : α → β → Option Bool} {as : List α} {bs : List β}
    (same : ∀ a ∈ as, ∀ b ∈ bs, test' a b = test a b) : allAgree? test' as bs = allAgree? test as bs := by
  induction as generalizing bs with
  | nil => cases bs <;> rfl
  | cons a as ih =>
    cases bs with
    | nil => rfl
    | cons b bs =>
      have rest : allAgree? test' as bs = allAgree? test as bs :=
        ih (fun a left b right => same a (List.mem_cons_of_mem _ left) b (List.mem_cons_of_mem _ right))
      simp only [allAgree?, same a List.mem_cons_self b List.mem_cons_self, rest]

theorem allPass?_congr {test test' : α → Option Bool} {items : List α} (same : ∀ a ∈ items, test' a = test a) :
    allPass? test' items = allPass? test items := by
  induction items with
  | nil => rfl
  | cons a rest ih =>
    simp only [allPass?, same a List.mem_cons_self, ih (fun a member => same a (List.mem_cons_of_mem _ member))]

theorem rowsOrdered_congr {equal equal' : Value → Value → Option Bool} {ordered ordered' : Value → Value → Except OrderFault Bool}
    {test : OrderTest} {vs ws : List Value}
    (same : ∀ v ∈ vs, ∀ w ∈ ws, equal' v w = equal v w ∧ ordered' v w = ordered v w) :
    rowsOrdered equal' ordered' test vs ws = rowsOrdered equal ordered test vs ws := by
  induction vs generalizing ws with
  | nil => cases ws <;> rfl
  | cons v vs ih =>
    cases ws with
    | nil => rfl
    | cons w ws =>
      have rest : rowsOrdered equal' ordered' test vs ws = rowsOrdered equal ordered test vs ws :=
        ih (fun v left w right => same v (List.mem_cons_of_mem _ left) w (List.mem_cons_of_mem _ right))
      obtain ⟨equal, ordered⟩ := same v List.mem_cons_self w List.mem_cons_self
      simp only [rowsOrdered, equal, ordered, rest]

namespace Value.Among
variable {S : Addr → Prop}

theorem items {items : List Value} (among : ∀ a ∈ Value.addressesOf items, S a) : ∀ v ∈ items, v.Among S :=
  fun v member a named => among a (Value.mem_addressesOf.mpr ⟨v, member, named⟩)

theorem plain {v : Value} (none : v.addresses = []) : v.Among S := by
  intro a named
  rw [none] at named
  cases named

/-- The keys and the values of entries, and the values of fields. -/
theorem entries {entries : Entries} (among : ∀ a ∈ (Object.dict entries).addresses, S a) :
    ∀ entry ∈ entries.toList, entry.1.Among S ∧ entry.2.Among S := by
  intro entry member
  obtain ⟨first, second⟩ := mem_entryValues member
  exact ⟨items among _ first, items among _ second⟩

theorem named {entries : Entries} {key v : Value} (among : ∀ a ∈ (Object.dict entries).addresses, S a)
    (found : Entries.get? entries key = some v) : v.Among S := by
  obtain ⟨entry, there, rfl⟩ := Option.map_eq_some_iff.mp found
  exact (Among.entries among entry (Array.mem_toList_iff.mpr (Array.mem_of_find?_eq_some there))).2

theorem field {kind : RecordKind} {fields : Fields} (among : ∀ a ∈ (Object.record kind fields).addresses, S a) (name : String) :
    (Fields.member fields name).Among S := by
  cases found : Fields.get? fields name with
  | none =>
    rw [Fields.member, found]
    exact plain rfl
  | some v =>
    rw [Fields.member, found]
    exact items among _ (Fields.get?_mem found)

end Value.Among

namespace Heap.Shares
variable {S : Addr → Prop} {h k : Heap} {v w : Value} {a : Addr}

theorem grown {h' k' : Heap} (shares : Shares S h k) (grows : h.Extends h') (grows' : k.Extends k') : Shares S h' k' where
  same a inside := by
    obtain ⟨o, left, right⟩ := shares.same a inside
    exact ⟨o, grows a o left, grows' a o right⟩
  closed a inside := by
    obtain ⟨o, left, -⟩ := shares.same a inside
    rw [Heap.object_of_getElem? (grows a o left), ← Heap.object_of_getElem? left]
    exact shares.closed a inside

theorem object (shares : Shares S h k) (inside : S a) : k.object a = h.object a := by
  obtain ⟨o, left, right⟩ := shares.same a inside
  rw [Heap.object_of_getElem? left, Heap.object_of_getElem? right]

mutual

theorem unhashable? (shares : Shares S h k) {v : Value} (among : v.Among S) : v.unhashable? k = v.unhashable? h := by
  match v with
  | .tuple items => rw [Value.unhashable?, firstUnhashable? shares among, Value.unhashable?]
  | .bound m receiver => rw [Value.unhashable?, unhashable? shares (show receiver.Among S from among), Value.unhashable?]
  | .ref a => rw [Value.unhashable?, shares.object (among a List.mem_cons_self), Value.unhashable?]
  | .slice _ _ _ => rfl
  | .nothing | .ellipsis | .bool _ | .int _ | .float _ | .str _ | .range _ _ _ | .date _ | .moment _ | .type _ | .builtin _
  | .method _ => rfl

theorem firstUnhashable? (shares : Shares S h k) {items : List Value} (among : ∀ a ∈ Value.addressesOf items, S a) :
    Value.firstUnhashable? k items = Value.firstUnhashable? h items := by
  match items with
  | [] => rfl
  | v :: rest =>
    have first : v.Among S := fun a named => among a (List.mem_append_left _ named)
    have others : ∀ a ∈ Value.addressesOf rest, S a := fun a named => among a (List.mem_append_right _ named)
    rw [Value.firstUnhashable?, unhashable? shares first, firstUnhashable? shares others, Value.firstUnhashable?]

end

variable (shares : Shares S h k)
include shares

theorem reaches (among : v.Among S) (reaches : h.Reaches v a) : S a := by
  induction reaches with
  | here named => exact among _ named
  | deeper before named ih => exact shares.closed _ ih _ named

theorem agrees (among : v.Among S) : h.Agrees k v := fun _ reaches => shares.object (shares.reaches among reaches)

/-! What is read of a value. -/

theorem plain (among : v.Among S) : v.plain k = v.plain h := Value.write_congr (shares.agrees among) _ _ _

theorem quoted (among : v.Among S) : v.quoted k = v.quoted h := Value.write_congr (shares.agrees among) _ _ _

theorem shown (among : v.Among S) : Fault.shown k v = Fault.shown h v := by rw [Fault.shown, shares.plain among, Fault.shown]

theorem classOf (among : v.Among S) : v.classOf k = v.classOf h := by
  cases v with
  | ref a => rw [Value.classOf, shares.object (among a List.mem_cons_self), Value.classOf]
  | _ => rfl

theorem className (among : v.Among S) : v.className k = v.className h := by
  rw [Value.className, shares.classOf among, Value.className]

theorem typeName (among : v.Among S) : v.typeName k = v.typeName h := by
  rw [Value.typeName, shares.classOf among, Value.typeName]

theorem entries? (among : v.Among S) : v.entries? k = v.entries? h := by
  cases v with
  | ref a => rw [Value.entries?, shares.object (among a List.mem_cons_self), Value.entries?]
  | _ => rfl

theorem listItems? (among : v.Among S) : v.listItems? k = v.listItems? h := by
  cases v with
  | ref a => rw [Value.listItems?, shares.object (among a List.mem_cons_self), Value.listItems?]
  | _ => rfl

theorem isCallable (among : v.Among S) : v.isCallable k = v.isCallable h := by
  cases v with
  | ref a => rw [Value.isCallable, shares.object (among a List.mem_cons_self), Value.isCallable]
  | _ => rfl

/-- Two objects are compared alike if their parts are. -/
theorem object_equal? {o p : Object} {test test' : Value → Value → Option Bool} (left : ∀ a ∈ o.addresses, S a)
    (right : ∀ a ∈ p.addresses, S a) (same : ∀ v w : Value, v.Among S → w.Among S → test' v w = test v w) :
    Object.equal? k test' o p = Object.equal? h test o p := by
  unfold Object.equal?
  split
  · rw [allAgree?_congr (fun v member w other => same v w (Value.Among.items left v member) (Value.Among.items right w other))]
  · next xs ys =>
    rw [allPass?_congr (fun entry member => ?_)]
    obtain ⟨key, v⟩ := entry
    cases found : Entries.get? ys key with
    | none => simp only [found]
    | some w => simp only [found, same v w (Value.Among.entries left _ member).2 (Value.Among.named right found)]
  · rfl
  · next xs ys =>
    rw [allPass?_congr (fun field member => ?_)]
    obtain ⟨name, v⟩ := field
    cases found : Fields.get? ys name with
    | none => simp only [found]
    | some w =>
      have first : v.Among S := Value.Among.items left v (List.mem_map_of_mem member)
      simp only [found, same v w first (Value.Among.items right w (Fields.get?_mem found))]
  · next kind xs kind' ys _ =>
    rw [allAgree?_congr (fun v member w other => ?_)]
    obtain ⟨name, -, rfl⟩ := List.mem_map.mp member
    obtain ⟨name', -, rfl⟩ := List.mem_map.mp other
    exact same _ _ (Value.Among.field left name) (Value.Among.field right name')
  · next a b =>
    rw [shares.object (left a List.mem_cons_self), shares.object (right b List.mem_cons_self)]
  · rfl

theorem equal? (left : v.Among S) (right : w.Among S) (depth : Nat) : Value.equal? k depth v w = Value.equal? h depth v w := by
  induction depth generalizing v w with
  | zero => rfl
  | succ depth ih =>
    have same (v w : Value) (left : v.Among S) (right : w.Among S) :
        (if v.same w then some true else Value.equal? k depth v w) =
          if v.same w then some true else Value.equal? h depth v w := by rw [ih left right]
    unfold Value.equal?
    split <;> dsimp only
    · rw [allAgree?_congr (fun v member w other => same v w (Value.Among.items left v member) (Value.Among.items right w other))]
    · next a b =>
      have first := left a List.mem_cons_self
      have second := right b List.mem_cons_self
      rw [shares.object first, shares.object second,
        shares.object_equal? (shares.closed a first) (shares.closed b second) same]

theorem ordered (test : OrderTest) (left : v.Among S) (right : w.Among S) (depth : Nat) :
    Value.ordered k test depth v w = Value.ordered h test depth v w := by
  induction depth generalizing v w with
  | zero => rfl
  | succ depth ih =>
    have same (v w : Value) (left : v.Among S) (right : w.Among S) :
        (if v.same w then some true else Value.equal? k depth v w) =
            (if v.same w then some true else Value.equal? h depth v w) ∧
          Value.ordered k test depth v w = Value.ordered h test depth v w := by
      rw [shares.equal? left right]
      exact ⟨rfl, ih left right⟩
    have refused := congrArg₂ (OrderFault.unordered test) (shares.typeName left) (shares.typeName right)
    unfold Value.ordered
    split <;> dsimp only
    · exact rowsOrdered_congr (fun v member w other =>
        same v w (Value.Among.items left v member) (Value.Among.items right w other))
    · next a b =>
      have first := left a List.mem_cons_self
      have second := right b List.mem_cons_self
      have left := shares.closed a first
      have right := shares.closed b second
      rw [shares.object first, shares.object second]
      split
      · next found found' =>
        rw [found] at left
        rw [found'] at right
        exact rowsOrdered_congr (fun v member w other =>
          same v w (Value.Among.items left v member) (Value.Among.items right w other))
      · rfl
      · rw [refused]
    · rw [refused]

theorem ofMember (among : v.Among S) : Draft.ofMember k v = Draft.ofMember h v := by
  unfold Draft.ofMember
  split
  · rfl
  · rfl
  · rw [shares.isCallable among]

/-- The same draft is read from a value. -/
theorem ofValue? (among : v.Among S) (depth : Nat) : Draft.ofValue? k depth v = Draft.ofValue? h depth v := by
  induction depth generalizing v with
  | zero => rfl
  | succ depth ih =>
    have row {items : List Value} (inside : ∀ a ∈ Value.addressesOf items, S a) :
        items.mapM (Draft.ofValue? k depth) = items.mapM (Draft.ofValue? h depth) :=
      Fallible.mapM_congr (fun w member => ih (Value.Among.items inside w member))
    unfold Draft.ofValue?
    split
    · rw [row among]
    · next a =>
      have inside := among a List.mem_cons_self
      have parts := shares.closed a inside
      have member := shares.ofMember among
      rw [shares.object inside]
      split
      · next found =>
        rw [found] at parts
        rw [row parts]
      · next entries found =>
        rw [found] at parts
        rw [Fallible.mapM_congr (fun entry there => ?_)]
        obtain ⟨-, among⟩ := Value.Among.entries parts entry there
        obtain ⟨key, w⟩ := entry
        dsimp only
        rw [ih among, shares.ofMember among]
      · next kind fields found =>
        rw [found] at parts
        have field (name : String) : (Fields.member fields name).Among S := Value.Among.field parts name
        have same (name : String) := shares.ofMember (field name)
        have deeper (name : String) := ih (field name)
        simp only [Fields.member] at same deeper
        cases kind <;> dsimp only <;> simp only [same, deeper]
      · rw [member]
    · rw [shares.ofMember among]

end Heap.Shares

end Workflow.Script
