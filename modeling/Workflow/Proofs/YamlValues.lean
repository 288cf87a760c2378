import Mathlib.Data.List.Forall2
import Workflow.Proofs.Remaking
import Workflow.Yaml.Value

/-! Documents that are read again. What the text of a document stands for does not depend on what else there is. -/

namespace Workflow.Yaml
open Script (Act Addr Entries Heap Object Renaming Value)

variable {base : Heap} {f g : Renaming}

/-! Scalars. -/

theorem signedText_still (text : String) : Act.Still (signedText text) := by
  unfold signedText
  split
  · exact .fail _ _
  · exact .pure _

theorem intOfDigits_still (base : Nat) (text : String) : Act.Still (Act.intOfText base text) := by
  unfold Act.intOfText
  split
  · dsimp only
    split
    · exact .bind (.fail _ _) (fun _ => .pure _)
    · exact .pure _
  · exact fun h a k ran => by cases ran

theorem natOfText_still (text : String) : Act.Still (natOfText text) := by
  unfold natOfText
  dsimp only
  split
  · exact .fail _ _
  · exact intOfDigits_still _ _
  · exact intOfDigits_still _ _
  · exact .pure _
  · exact intOfDigits_still _ _
  · split
    · exact .bind (.mapM (fun _ => intOfDigits_still _ _) _) (fun _ => .pure _)
    · exact intOfDigits_still _ _

theorem toFloat_still (n : Int) : Act.Still (Act.toFloat n) := by
  unfold Act.toFloat
  split
  · exact .pure _
  · exact .fail _ _

theorem floatOfDigits_still (text : String) : Act.Still (Act.floatOfText text) := by
  unfold Act.floatOfText
  split
  · exact .pure _
  · exact fun h a k ran => by cases ran

theorem addSixties_still (sum : Float) (base : Int) (parts : List Float) : Act.Still (addSixties sum base parts) := by
  induction parts generalizing sum base with
  | nil => exact .pure _
  | cons part rest ih => exact .bind (toFloat_still _) (fun _ => ih _ _)

theorem magnitudeOfText_still (text : String) : Act.Still (magnitudeOfText text) := by
  unfold magnitudeOfText
  split
  · exact .pure _
  · split
    · exact .bind (.mapM (fun _ => floatOfDigits_still _) _) (fun _ => addSixties_still _ _ _)
    · exact floatOfDigits_still _

theorem text?_still (g : Graph) (depth i : Nat) : Act.Still (g.text? depth i) := by
  induction depth generalizing i with
  | zero => exact .fail _ _
  | succ depth ih =>
    unfold Graph.text?
    split
    · exact .pure _
    · exact .pure _
    · split
      · exact ih _
      · exact .pure _

/-- A reader of scalars gives the same wherever it is used. -/
def Reads (read : String → Act Value) : Prop :=
  ∀ base f text, Act.Follows {} base f Renaming.Sends (read text) (read text)

theorem bare_follows {v : Value} (bare : v.isBare) : Act.Follows {} base f Renaming.Sends (pure v) (pure v) :=
  .pure (bare.sends f)

theorem bool_reads : Reads boolOfText := by
  intro base f text
  unfold boolOfText
  dsimp only
  split
  · exact bare_follows rfl
  · split
    · exact bare_follows rfl
    · exact .never (fun _ _ _ ran => by cases ran)

theorem int_reads : Reads intOfText := by
  intro base f text
  refine (signedText_still text).follows.bind (fun g a b _ same => ?_)
  subst same
  refine (natOfText_still _).follows.bind (fun k n m _ same => ?_)
  subst same
  exact bare_follows (v := .int _) rfl

theorem float_reads : Reads floatOfText := by
  intro base f text
  refine (signedText_still text).follows.bind (fun g a b _ same => ?_)
  subst same
  dsimp only
  split
  · exact bare_follows (v := .float _) rfl
  · refine (magnitudeOfText_still _).follows.bind (fun k n m _ same => ?_)
    subst same
    exact bare_follows (v := .float _) rfl

theorem inRange_follows {fault : Option CalendarFault} {v : Value} (bare : v.isBare) :
    Act.Follows {} base f Renaming.Sends (inRange fault v) (inRange fault v) := by
  unfold inRange
  split
  · exact bare_follows bare
  · exact .fail _ _ _

theorem time_reads : Reads timeOfText := by
  intro base f text
  unfold timeOfText
  split
  · exact inRange_follows (v := .date _) rfl
  · exact inRange_follows (v := .moment _) rfl
  · exact .fail _ _ _

/-! Making values. -/

/-- What has been made so far, at other addresses. -/
structure Making.Sent (f : Renaming) (m m' : Making) : Prop where
  values : m'.values = m.values.map (fun (i, v) => (i, v.rename f.map))
  covers : ∀ entry ∈ m.values, f.Covers entry.2
  unfilled : m'.unfilled = m.unfilled.map (fun (i, a) => (i, f.map a))
  inside : ∀ entry ∈ m.unfilled, f.domain entry.2

theorem Making.Sent.find? {m m' : Making} (sent : Making.Sent f m m') (i : Nat) :
    m'.values.find? (·.1 == i) = (m.values.find? (·.1 == i)).map (fun (i, v) => (i, v.rename f.map)) := by
  rw [sent.values, List.find?_map]
  rfl

theorem Making.Sent.mono {m m' : Making} (sent : Making.Sent f m m') (within : f.Within g) : Making.Sent g m m' where
  values := sent.values.trans (List.map_congr_left (fun entry member => by
    simp only [within.rename (sent.covers entry member)]))
  covers entry member := (sent.covers entry member).mono within
  unfilled := sent.unfilled.trans (List.map_congr_left (fun entry member => by
    simp only [(within _ (sent.inside entry member)).2]))
  inside entry member := (within _ (sent.inside entry member)).1

namespace Build
variable {x y : Build α} {k : α → Build β} {m m' m₁ m₂ : Making} {h h' h₁ : Heap}

theorem bind_of_ok {a : α} (ran : x m h = .ok (.ok (a, m₁)) h₁) : (x >>= k) m h = k a m₁ h₁ := by
  simp only [Bind.bind, StateT.bind, ExceptT.bind, ExceptT.mk, EStateM.bind, ran, ExceptT.bindCont]

theorem bind_ok {b : β} (ran : (x >>= k) m h = .ok (.ok (b, m₂)) h') :
    ∃ a m₁ h₁, x m h = .ok (.ok (a, m₁)) h₁ ∧ k a m₁ h₁ = .ok (.ok (b, m₂)) h' := by
  simp only [Bind.bind, StateT.bind, ExceptT.bind, ExceptT.mk, EStateM.bind] at ran
  cases begun : x m h with
  | error stop h₁ =>
    rw [begun] at ran
    cases ran
  | ok r h₁ =>
    rw [begun] at ran
    cases r with
    | error fault => cases ran
    | ok made => exact ⟨made.1, made.2, h₁, rfl, ran⟩

theorem act_eq (a : Act α) (m : Making) (h : Heap) :
    Build.act a m h =
      EStateM.bind (EStateM.map Except.ok a) (fun r => ExceptT.bindCont (fun v => Pure.pure (v, m)) r) h := rfl

theorem act_of_ok {a : Act α} {v : α} (ran : a h = .ok v h₁) : Build.act a m h = .ok (.ok (v, m)) h₁ := by
  rw [act_eq]
  simp only [EStateM.bind, EStateM.map, ran]
  rfl

theorem act_ok {a : Act α} {v : α} (ran : Build.act a m h = .ok (.ok (v, m₁)) h₁) : a h = .ok v h₁ ∧ m₁ = m := by
  cases done : a h with
  | ok w k =>
    rw [act_of_ok done] at ran
    cases ran
    exact ⟨rfl, rfl⟩
  | error stop k =>
    rw [act_eq] at ran
    simp only [EStateM.bind, EStateM.map, done] at ran
    cases ran

/-- Making that is done again in another heap. -/
def Follows (base : Heap) (f : Renaming) (like : Renaming → α → β → Prop) (x : Build α) (y : Build β) : Prop :=
  ∀ m m' h h' a m₁ k, Making.Sent f m m' → Heap.Behind {} base f h h' → x m h = .ok (.ok (a, m₁)) k →
    ∃ g b m₂ k', f.Within g ∧ y m' h' = .ok (.ok (b, m₂)) k' ∧ like g a b ∧ Making.Sent g m₁ m₂ ∧ Heap.Behind {} base g k k'

namespace Follows
variable {like : Renaming → α → β → Prop} {alike : Renaming → γ → δ → Prop}

theorem pure {a : α} {b : β} (values : like f a b) : Follows base f like (Pure.pure a) (Pure.pure b) := by
  intro m m' h h' a' m₁ k sent behind ran
  cases ran
  exact ⟨f, b, m', h', .refl f, rfl, values, sent, behind⟩

theorem bind {x : Build α} {y : Build β} {k : α → Build γ} {l : β → Build δ} (begun : Follows base f like x y)
    (rest : ∀ g a b, f.Within g → like g a b → Follows base g alike (k a) (l b)) :
    Follows base f alike (x >>= k) (y >>= l) := by
  intro m m' h h' c m₂ k' sent behind ran
  obtain ⟨a, m₁, h₁, ran, more⟩ := bind_ok ran
  obtain ⟨g, b, n₁, k₁, within, same, values, sent, behind⟩ := begun m m' h h' a m₁ h₁ sent behind ran
  obtain ⟨g', d, n₂, k₂, within', same', values', sent, behind⟩ := rest g a b within values m₁ n₁ h₁ k₁ c m₂ k' sent behind more
  exact ⟨g', d, n₂, k₂, within.trans within', (bind_of_ok same).trans same', values', sent, behind⟩

theorem never {x : Build α} {y : Build β} (fails : ∀ m h a m₁ k, x m h ≠ .ok (.ok (a, m₁)) k) : Follows base f like x y :=
  fun m _ h _ a m₁ k _ _ ran => absurd ran (fails m h a m₁ k)

theorem throw (fault : Fault) (y : Build β) : Follows base f like (throwThe Fault fault : Build α) y :=
  .never (fun _ _ _ _ _ ran => by cases ran)

theorem act {a : Act α} {b : Act β} (same : Act.Follows {} base f like a b) : Follows base f like (act a) (act b) := by
  intro m m' h h' v m₁ k sent behind ran
  obtain ⟨done, rfl⟩ := act_ok ran
  obtain ⟨g, w, k', within, ran', values, behind⟩ := same h h' v k behind done
  exact ⟨g, w, m', k', within, act_of_ok ran', values, sent.mono within, behind⟩

end Follows

namespace Follows

/-- Values correspond once they are made. -/
abbrev Makes (base : Heap) (f : Renaming) (x : Build Value) : Prop := Follows base f Renaming.Sends x x

theorem keep (i : Nat) {v v' : Value} (sends : f.Sends v v') : Follows base f Renaming.Sends (keep i v) (keep i v') := by
  intro m m' h h' a m₁ k sent behind ran
  cases ran
  obtain ⟨covers, rfl⟩ := sends
  refine ⟨f, _, { m' with values := (i, v.rename f.map) :: m'.values }, h', .refl f, rfl, ⟨covers, rfl⟩, ?_, behind⟩
  exact ⟨by rw [sent.values]; rfl, List.forall_mem_cons.mpr ⟨covers, sent.covers⟩, sent.unfilled, sent.inside⟩

theorem collection (i : Nat) {o : Object} (empty : o.addresses = []) (same : ∀ f, o.rename f = o) :
    Makes base f (Build.collection i o) := by
  have covers : f.CoversObject o := by
    intro a member
    rw [empty] at member
    cases member
  have made := (Heap.Behind.housing {} base).alloc covers
  rw [same] at made
  refine (act (.of_alike made)).bind (fun g a b within new => ?_)
  obtain ⟨there, rfl⟩ := new
  have noted : Follows base g Whatever (modify (fun m => { m with unfilled := m.unfilled ++ [(i, a)] }) : Build PUnit)
      (modify (fun m => { m with unfilled := m.unfilled ++ [(i, g.map a)] }) : Build PUnit) := by
    intro m m' h h' u m₁ k sent behind ran
    cases ran
    refine ⟨g, ⟨⟩, { m' with unfilled := m'.unfilled ++ [(i, g.map a)] }, h', .refl g, rfl, trivial, ?_, behind⟩
    refine ⟨sent.values, sent.covers, by rw [sent.unfilled, List.map_append]; rfl, fun entry member => ?_⟩
    obtain member | member := List.mem_append.mp member
    · exact sent.inside entry member
    · rw [List.mem_singleton.mp member]
      exact there
  refine noted.bind (fun k _ _ more _ => ?_)
  refine keep i ⟨Renaming.covers_ref.mpr (more a there).1, ?_⟩
  rw [Value.rename, (more a there).2]

theorem get : Follows base f Making.Sent MonadState.get MonadState.get := by
  intro m m' h h' a m₁ k sent behind ran
  cases ran
  exact ⟨f, m', m', h', .refl f, rfl, sent, sent, behind⟩

variable (g : Graph)

theorem scalar (i : Nat) {read : String → Act Value} (reads : Reads read) : Makes base f (scalar g i read) := by
  refine (act (text?_still g _ i).follows).bind (fun k r r' _ same => ?_)
  subst same
  cases r' with
  | error fault => exact .throw _ _
  | ok text => exact (act (reads _ _ text)).bind (fun _ _ _ _ sends => keep i sends)

theorem tagged (i : Nat) (tag : Tag) : Makes base f (tagged g i tag) := by
  refine get.bind (fun k m m' _ sent => ?_)
  rw [sent.find? i]
  cases found : m.values.find? (·.1 == i) with
  | some entry => exact .pure ⟨sent.covers entry (List.mem_of_find?_eq_some found), rfl⟩
  | none =>
    cases tag with
    | null => exact scalar g i (fun _ _ _ => bare_follows (v := .nothing) rfl)
    | bool => exact scalar g i bool_reads
    | int => exact scalar g i int_reads
    | float => exact scalar g i float_reads
    | timestamp => exact scalar g i time_reads
    | str => exact scalar g i (fun _ _ text => bare_follows (v := .str text) rfl)
    | seq => exact collection i rfl (fun _ => by simp [Object.rename])
    | omap => exact collection i rfl (fun _ => by simp [Object.rename])
    | pairs => exact collection i rfl (fun _ => by simp [Object.rename])
    | map => exact collection i rfl (fun _ => by simp [Object.rename])
    | set => exact collection i rfl (fun _ => by simp [Object.rename])
    | _ => exact .throw _ _

theorem value (i : Nat) : Makes base f (value g i) := tagged g i _

theorem key (i : Nat) : Makes base f (key g i) := by
  refine (tagged g i _).bind (fun k v v' _ sends => ?_)
  refine (act Act.Follows.get).bind (fun l h h' more behind => ?_)
  obtain ⟨covers, rfl⟩ := sends.mono more
  rw [behind.renamed.unhashable? covers]
  cases v.unhashable? h with
  | some _ => exact .throw _ _
  | none => exact .pure ⟨covers, rfl⟩

theorem entries {found found' : Entries} (sent : found.CoveredBy f ∧ found' = Entries.rename found f.map)
    (pairs : List (Nat × Nat)) :
    Follows base f (fun k e e' => e.CoveredBy k ∧ e' = Entries.rename e k.map) (entries g found pairs)
      (entries g found' pairs) := by
  induction pairs generalizing f found found' with
  | nil => exact .pure sent
  | cons pair rest ih =>
    obtain ⟨covered, rfl⟩ := sent
    refine (key g pair.1).bind (fun k u u' within name => ?_)
    refine (value g pair.2).bind (fun l v v' more sends => ?_)
    obtain ⟨covers, rfl⟩ := name.mono more
    obtain ⟨covers', rfl⟩ := sends
    have all := covered.mono (within.trans more)
    rw [← covered.rename (within.trans more)]
    exact ih ⟨Entries.insert_covered all covers covers', Entries.insert_rename all covers⟩

theorem mappingEntries (i : Nat) :
    Follows base f (fun k e e' => e.CoveredBy k ∧ e' = Entries.rename e k.map) (mappingEntries g i) (mappingEntries g i) := by
  have none : Entries.CoveredBy #[] f ∧ #[] = Entries.rename #[] f.map := ⟨by simp [Entries.CoveredBy], by simp [Entries.rename]⟩
  unfold Build.mappingEntries
  cases g.isMapping i with
  | false => exact .never (fun _ _ _ _ _ ran => by cases ran)
  | true =>
    cases g.allPairs g.nodes.size [] i with
    | ok pairs => exact entries g none pairs
    | error fault => exact .throw _ _

theorem items (i : Nat) : Follows base f (fun _ a b => b = a) (items g i) (items g i) := by
  unfold Build.items
  split
  · exact .pure rfl
  · exact .throw _ _

theorem pair (i : Nat) : Makes base f (pair g i) := by
  unfold Build.pair
  split
  · refine (value g _).bind (fun k u u' _ first => ?_)
    refine (value g _).bind (fun l v v' more second => ?_)
    obtain ⟨covers, rfl⟩ := first.mono more
    obtain ⟨covers', rfl⟩ := second
    refine .pure ⟨Renaming.CoversAll.tuple ?_, rfl⟩
    exact List.forall_mem_cons.mpr ⟨covers, List.forall_mem_singleton.mpr covers'⟩
  · exact .throw _ _

/-- Values that were made one after the other. -/
theorem values {make : Nat → Build Value} (each : ∀ k i, f.Within k → Makes base k (make i)) (items : List Nat) :
    Follows base f (fun k vs vs' => k.CoversAll vs ∧ vs' = vs.map (Value.rename k.map)) (items.mapM make)
      (items.mapM make) := by
  induction items generalizing f with
  | nil => exact .pure ⟨List.forall_mem_nil _, rfl⟩
  | cons i rest ih =>
    rw [List.mapM_cons]
    refine (each f i (.refl f)).bind (fun k v v' within first => ?_)
    refine (ih (fun l i more => each l i (within.trans more))).bind (fun l vs vs' more others => ?_)
    obtain ⟨covers, rfl⟩ := first.mono more
    obtain ⟨all, rfl⟩ := others
    exact .pure ⟨List.forall_mem_cons.mpr ⟨covers, all⟩, rfl⟩

theorem filling (i : Nat) :
    Follows base f (fun k o o' => k.CoversObject o ∧ o' = o.rename k.map) (filling g i) (filling g i) := by
  have row {make : Nat → Build Value} (each : ∀ k i, f.Within k → Makes base k (make i)) :
      Follows base f (fun k o o' => k.CoversObject o ∧ o' = o.rename k.map)
        (do return .list (← (← Build.items g i).mapM make).toArray)
        (do return .list (← (← Build.items g i).mapM make).toArray) := by
    refine (items g i).bind (fun k is is' within same => ?_)
    subst same
    refine (values (fun l i more => each l i (within.trans more)) _).bind (fun l vs vs' _ made => ?_)
    obtain ⟨all, rfl⟩ := made
    refine .pure ⟨Renaming.coversAll_iff.mpr all, ?_⟩
    simp [Object.rename]
  unfold Build.filling
  split
  · exact row (fun _ i _ => value g i)
  · refine (mappingEntries g i).bind (fun k e e' _ made => ?_)
    obtain ⟨covered, rfl⟩ := made
    exact .pure ⟨Entries.coveredBy_iff.mpr covered, rfl⟩
  · refine (mappingEntries g i).bind (fun k e e' _ made => ?_)
    obtain ⟨covered, rfl⟩ := made
    have keys : k.CoversAll (e.toList.map (·.1)) := by
      intro v member
      obtain ⟨entry, among, rfl⟩ := List.mem_map.mp member
      exact (covered entry (Array.mem_toList_iff.mp among)).1
    obtain ⟨all, same⟩ := Script.Members.ofList_renamed keys
    refine .pure ⟨all, ?_⟩
    rw [Object.rename, ← same]
    simp [Entries.rename, Script.Entry.rename, Function.comp_def]
  · exact row (fun _ i _ => pair g i)

theorem fillAll (fuel : Nat) : Follows base f Whatever (fillAll g fuel) (fillAll g fuel) := by
  induction fuel generalizing f with
  | zero => exact .pure trivial
  | succ fuel ih =>
    refine get.bind (fun k m m' _ sent => ?_)
    rw [sent.unfilled]
    cases unfilled : m.unfilled with
    | nil => exact .pure trivial
    | cons entry rest =>
      have there : k.domain entry.2 := sent.inside entry (by rw [unfilled]; exact List.mem_cons_self)
      have inside : ∀ entry ∈ rest, k.domain entry.2 := fun entry member =>
        sent.inside entry (by rw [unfilled]; exact List.mem_cons_of_mem _ member)
      have begun : Follows base k Whatever (modify (fun m => { m with unfilled := rest }) : Build PUnit)
          (modify (fun m => { m with unfilled := rest.map (fun (i, a) => (i, k.map a)) }) : Build PUnit) := by
        intro m m' h h' u m₁ k' sent behind ran
        cases ran
        exact ⟨k, ⟨⟩, _, h', .refl k, rfl, trivial, ⟨sent.values, sent.covers, rfl, inside⟩, behind⟩
      refine begun.bind (fun l _ _ within _ => ?_)
      refine (filling g entry.1).bind (fun n o o' more filled => ?_)
      obtain ⟨covers, rfl⟩ := filled
      have both := within.trans more
      have writes : Act.Repeats {} base n Whatever _ _ :=
        Act.Repeats.write (both entry.2 there).1 (show Array.size #[] ≤ entry.2 from Nat.zero_le _) covers
      have written := act (.of_alike writes)
      rw [(both entry.2 there).2] at written
      exact written.bind (fun _ _ _ _ _ => ih)

end Follows

end Build

/-- The value that the text of a document stands for is the same at other addresses. -/
theorem valueOf_again {text : String} {h h' k : Heap} {v : Value} (behind : Heap.Behind {} base f h h')
    (ran : valueOf text h = .ok (.ok v) k) :
    ∃ g v' k', f.Within g ∧ valueOf text h' = .ok (.ok v') k' ∧ g.Sends v v' ∧ Heap.Behind {} base g k k' := by
  unfold valueOf at ran ⊢
  generalize Graph.ofText text = read at ran ⊢
  cases read with
  | error fault =>
    cases fault with
    | escape beyond => cases beyond <;> cases ran
    | _ => cases ran
  | ok found =>
    cases found with
    | none =>
      cases ran
      exact ⟨f, .nothing, h', .refl f, rfl, Value.isBare.sends (v := .nothing) rfl f, behind⟩
    | some graph =>
      let make : Build Value := do
        let v ← Build.value graph graph.root
        Build.fillAll graph (graph.nodes.size + 1)
        return v
      have follows : Build.Follows base f Renaming.Sends make make :=
        (Build.Follows.value graph _).bind (fun k v v' _ sends =>
          (Build.Follows.fillAll graph _).bind (fun _ _ _ more _ => .pure (sends.mono more)))
      obtain ⟨made, h₁, begun, ran⟩ := Engine.Work.bind_ok ran
      cases made with
      | error fault => cases ran
      | ok made =>
        cases ran
        have none : Making.Sent f {} {} := ⟨rfl, List.forall_mem_nil _, rfl, List.forall_mem_nil _⟩
        obtain ⟨g, v', m, k', within, again, sends, -, behind⟩ := follows {} {} h h' made.1 made.2 _ none behind begun
        have again : (make.run {}).run h' = .ok (.ok (v', m)) k' := again
        exact ⟨g, v', k', within, (Engine.Work.ok_bind again).trans rfl, sends, behind⟩

end Workflow.Yaml
