import Workflow.Proofs.Places

/-! The brackets of a trace. Whatever is told of a row stands between an opening and a closing of its own, and the rows
inside it are told of in the same way, each at its place in the schema. -/

namespace Workflow
open Engine (Event View)

theorem Item.below?_append {i j k : Item} {row : List Item} {looped : Bool} {cursors : List Int} {cursor : Int}
    (found : i.below? cursors = some j) (inner : j.row? = some (row, looped)) (there : itemAt? row cursor = some k) :
    i.below? (cursors ++ [cursor]) = some k := by
  induction cursors generalizing i with
  | nil =>
    cases found
    simp only [List.nil_append, Item.below?, inner, there]
  | cons next deeper ih =>
    rw [List.cons_append, Item.below?]
    rw [Item.below?] at found
    cases outer : i.row? with
    | none =>
      rw [outer] at found
      cases found
    | some pair =>
      rw [outer] at found
      dsimp only at found ⊢
      cases first : itemAt? pair.1 next with
      | none =>
        rw [first] at found
        cases found
      | some l =>
        rw [first] at found
        exact ih found

theorem Schema.find?_append {root : Schema} {j k : Item} {row : List Item} {looped : Bool} {cursors : List Int} {cursor : Int}
    (found : root.find? cursors = some j) (inner : j.row? = some (row, looped)) (there : itemAt? row cursor = some k) :
    root.find? (cursors ++ [cursor]) = some k := by
  cases cursors with
  | nil => cases found
  | cons next deeper =>
    rw [Schema.find?] at found
    rw [List.cons_append, Schema.find?]
    cases first : itemAt? root next with
    | none =>
      rw [first] at found
      cases found
    | some i =>
      rw [first] at found
      exact Item.below?_append found inner there

/-- A check that holds leads into the row inside an item. -/
def Item.Enters : Item → Engine.Role → Prop
  | .block _ _, .gate => True
  | .loop _ _ _, .test => True
  | _, _ => False

namespace Engine

/-- An event that was told of, with the view that came with it. -/
abbrev Tale := Event × View

/-- The closing of a row at some cursors. A row that is interrupted is closed at the place deeper inside of what halted. -/
inductive Closer (level : Level) (here : List Int) : Tale → Prop where
  | ended {v} (there : v.cursors = here) : Closer level here (.ended level, v)
  | interrupted {v deeper} (there : v.cursors = here ++ deeper) : Closer level here (.interrupted level, v)

/-- What is told before an item at some cursors is gone into: that its gate holds, if it has one. -/
inductive Opens (here : List Int) (i : Item) : List Tale → Prop where
  | free (free : i.gate? = none) : Opens here i []
  | gated {c v} (gated : i.gate? = some c) (there : v.cursors = here) : Opens here i [(.checked .gate c true, v)]

/-- What is told inside the bracket of a row at some cursors: of steps and of checks, each at the item that it is about, and
of the rows inside of blocks and loops, each in one bracket of its own. A block is told of by its bracket, after its gate, and
an iteration of a loop by its bracket, after the test. -/
inductive Content (root : Schema) : (here : List Int) → List Tale → Prop where
  | nil {here} : Content root here []
  | step {here k id literal gate v ts} (item : root.find? (here ++ [k]) = some (.step id literal gate))
      (there : v.cursors = here ++ [k]) (rest : Content root here ts) : Content root here ((.step id, v) :: ts)
  | checked {here k i role c passed v ts} (item : root.find? (here ++ [k]) = some i) (poses : i.Poses (.check role c))
      (there : v.cursors = here ++ [k]) (stays : passed = true → ¬ i.Enters role) (rest : Content root here ts) :
      Content root here ((.checked role c passed, v) :: ts)
  | block {here k row gate gs v ts closer us} (item : root.find? (here ++ [k]) = some (.block row gate))
      (opens : Opens (here ++ [k]) (.block row gate) gs) (there : v.cursors = here ++ [k] ++ [0])
      (inside : Content root (here ++ [k]) ts) (closes : Closer .nested (here ++ [k]) closer) (rest : Content root here us) :
      Content root here (gs ++ (.opened .nested, v) :: (ts ++ closer :: us))
  | round {here k test row gate u v ts closer us} (item : root.find? (here ++ [k]) = some (.loop test row gate))
      (tested : u.cursors = here ++ [k]) (there : v.cursors = here ++ [k] ++ [0]) (inside : Content root (here ++ [k]) ts)
      (closes : Closer .nested (here ++ [k]) closer) (rest : Content root here us) :
      Content root here ((.checked .test test true, u) :: (.opened .nested, v) :: (ts ++ closer :: us))

/-- What is told inside the bracket of a row that is gone on with: first the bracket of what is gone on with inside it, which
neither a gate nor a test comes before, if the cursors lead deeper. -/
inductive Going (root : Schema) : (here resume : List Int) → List Tale → Prop where
  | fresh {here resume ts} (short : resume.tail = []) (content : Content root here ts) : Going root here resume ts
  | into {here k j deeper i row looped v ts closer us} (item : root.find? (here ++ [k]) = some i)
      (inner : i.row? = some (row, looped)) (there : v.cursors = here ++ (k :: j :: deeper))
      (inside : Going root (here ++ [k]) (j :: deeper) ts) (closes : Closer .nested (here ++ [k]) closer)
      (rest : Content root here us) :
      Going root here (k :: j :: deeper) ((.opened .nested, v) :: (ts ++ closer :: us))

/-- The bracket of a row. -/
inductive Bracket (root : Schema) (level : Level) (here resume : List Int) : List Tale → Prop where
  | intro {v ts closer} (there : v.cursors = here ++ (resume.headD 0 :: resume.tail)) (inside : Going root here resume ts)
      (closes : Closer level here closer) : Bracket root level here resume ((.opened level, v) :: (ts ++ [closer]))

theorem Content.append {root : Schema} {here : List Int} {ts us : List Tale} (first : Content root here ts)
    (rest : Content root here us) : Content root here (ts ++ us) := by
  induction first with
  | nil => exact rest
  | step item there _ ih => exact .step item there (ih rest)
  | checked item poses there stays _ ih => exact .checked item poses there stays (ih rest)
  | block item opens there inside closes _ _ ih =>
    rw [List.append_assoc, List.cons_append, List.append_assoc, List.cons_append]
    exact .block item opens there inside closes (ih rest)
  | round item tested there inside closes _ _ ih =>
    rw [List.cons_append, List.cons_append, List.append_assoc, List.cons_append]
    exact .round item tested there inside closes (ih rest)

theorem Going.append {root : Schema} {here resume : List Int} {ts us : List Tale} (first : Going root here resume ts)
    (rest : Content root here us) : Going root here resume (ts ++ us) := by
  cases first with
  | fresh short content => exact .fresh short (content.append rest)
  | into item inner there inside closes last =>
    rw [List.cons_append, List.append_assoc, List.cons_append]
    exact .into item inner there inside closes (last.append rest)

theorem Going.content {root : Schema} {here resume : List Int} {ts : List Tale} (going : Going root here resume ts)
    (short : resume.tail = []) : Content root here ts := by
  cases going with
  | fresh _ content => exact content
  | into => cases short

/-- An item or a row of a schema, at some cursors. -/
def RowAt (root : Schema) (here : List Int) (items : List Item) : Prop :=
  ∀ cursor i, itemAt? items cursor = some i → root.find? (here ++ [cursor]) = some i

theorem rowAt_root (root : Schema) : RowAt root [] root := by
  intro cursor i found
  rw [List.nil_append, Schema.find?, found]
  rfl

theorem rowAt_of_item {root : Schema} {here : List Int} {i : Item} {row : List Item} {looped : Bool}
    (item : root.find? here = some i) (inner : i.row? = some (row, looped)) : RowAt root here row :=
  fun _ _ there => Schema.find?_append item inner there

namespace Part

/-- A part of a schema lies at some cursors in it. -/
def Lies (root : Schema) (here : List Int) : Part → Prop
  | .row cursor _ _ items => ∀ (n : Nat) i, items[n]? = some i → root.find? (here ++ [cursor + n]) = some i
  | .walk _ _ _ items => RowAt root here items
  | .item _ _ i => root.find? here = some i
  | .inside _ _ i => root.find? here = some i
  | .body _ _ _ items => RowAt root here items
  | .loop test _ _ items => ∃ gate, root.find? here = some (.loop test items gate)

/-- How a part of a schema is told of. -/
def Tells (root : Schema) (here : List Int) (ts : List Tale) : Part → Prop
  | .row cursor deeper _ _ => Going root here (cursor :: deeper) ts
  | .walk start deeper _ _ => Going root here (start :: deeper) ts
  | .item deeper _ _ => ∀ outer k, here = outer ++ [k] → Going root outer (k :: deeper) ts
  | .inside [] _ i => ∀ outer k, here = outer ++ [k] → ∀ gs, Opens here i gs → Content root outer (gs ++ ts)
  | .inside (j :: deeper) _ _ => ∀ outer k, here = outer ++ [k] → Going root outer (k :: j :: deeper) ts
  | .body level resume _ _ => Bracket root level here resume ts
  | .loop _ resume _ _ => ∀ outer k, here = outer ++ [k] → Going root outer (k :: resume) ts

end Part

/-- Nothing fails while an opening is told. -/
def Heard (ms : List (Moment σ)) : Prop := ∀ level v w fault w', .missed (.opened level) v w fault w' ∉ ms

namespace Heard
variable {ms ns : List (Moment σ)}

theorem left (heard : Heard (ms ++ ns)) : Heard ms :=
  fun level v w fault w' member => heard level v w fault w' (List.mem_append_left ns member)

theorem right (heard : Heard (ms ++ ns)) : Heard ns :=
  fun level v w fault w' member => heard level v w fault w' (List.mem_append_right ms member)

theorem tail {m : Moment σ} (heard : Heard (m :: ms)) : Heard ms :=
  fun level v w fault w' member => heard level v w fault w' (List.mem_cons_of_mem m member)

end Heard

/-- An event of a bracket that is closed. -/
def Tale.Closing : Tale → Prop
  | (.ended _, _) => True
  | (.interrupted _, _) => True
  | _ => False

/-- A part is told of as far as it comes. What is missing, if it fails, are the closings of the rows that are open then. -/
def Completes (root : Schema) (here : List Int) (t : Part) (ts : List Tale) (e : End) : Prop :=
  ∃ rest, (∀ v, e = .ok v → rest = []) ∧ (∀ c ∈ rest, Tale.Closing c) ∧ t.Tells root here (ts ++ rest)

namespace Completes
variable {root : Schema} {here : List Int} {t u : Part} {ts us : List Tale} {e f : End}

theorem whole (tells : t.Tells root here ts) : Completes root here t ts e :=
  ⟨[], fun _ _ => rfl, List.forall_mem_nil _, by rwa [List.append_nil]⟩

theorem told {v : Verdict} (completes : Completes root here t ts (.ok v)) : t.Tells root here ts := by
  obtain ⟨rest, done, -, tells⟩ := completes
  rwa [done v rfl, List.append_nil] at tells

/-- A part is told of within another one, which does not end well if the part does not. -/
theorem amid {there : List Int} (completes : Completes root here t ts e) (ok : ∀ v, f = .ok v → ∃ u, e = .ok u)
    (tells : ∀ rest, t.Tells root here (ts ++ rest) → u.Tells root there (us ++ rest)) : Completes root there u us f := by
  obtain ⟨rest, done, closing, told⟩ := completes
  refine ⟨rest, ?_, closing, tells rest told⟩
  intro v same
  obtain ⟨u, same⟩ := ok v same
  exact done u same

/-- A part is told of within another one that ends with it. -/
theorem within {there : List Int} (completes : Completes root here t ts e)
    (tells : ∀ rest, t.Tells root here (ts ++ rest) → u.Tells root there (us ++ rest)) : Completes root there u us e :=
  completes.amid (fun v same => ⟨v, same⟩) tells

end Completes

theorem End.ok_ofBlock {p : Progress} {e : End} {v : Verdict} (ok : e.ofBlock p = .ok v) : ∃ u, e = .ok u := by
  cases e with
  | error fault => cases ok
  | ok u => exact ⟨u, rfl⟩

theorem End.ok_ofLoop {p : Progress} {e : End} {v : Verdict} (ok : e.ofLoop p = .ok v) : ∃ u, e = .ok u := by
  cases e with
  | error fault => cases ok
  | ok u => exact ⟨u, rfl⟩

theorem End.ok_again {p q : Progress} {e : End} (again : e.again? p = some q) : ∃ u, e = .ok u := by
  cases e with
  | error fault => cases again
  | ok u => exact ⟨u, rfl⟩

theorem CheckMoments.tales {here stepId role c} {ms : List (Moment σ)} {answer}
    (check : CheckMoments here stepId role c ms answer) :
    talesOf ms = [] ∧ (∀ passed, answer ≠ .ok (.ok passed)) ∨
    ∃ passed v, answer = .ok (.ok passed) ∧ v.cursors = here ∧ talesOf ms = [(.checked role c passed, v)] := by
  cases check with
  | told => exact .inr ⟨_, _, rfl, rfl, rfl⟩
  | missed => exact .inl ⟨rfl, nofun⟩
  | stopped stops => exact .inl ⟨rfl, stops⟩

/-- What is told of a check after which an item is not gone into. -/
theorem CheckMoments.content {root : Schema} {outer : List Int} {k : Int} {i : Item} {stepId role c} {ms : List (Moment σ)}
    {answer} (check : CheckMoments (outer ++ [k]) stepId role c ms answer) (item : root.find? (outer ++ [k]) = some i)
    (poses : i.Poses (.check role c)) (stays : answer = .ok (.ok true) → ¬ i.Enters role) :
    Content root outer (talesOf ms) := by
  obtain ⟨none, -⟩ | ⟨passed, v, rfl, there, same⟩ := check.tales
  · rw [none]
    exact .nil
  · rw [same]
    exact .checked item poses there (fun holds => stays (by rw [holds])) .nil

theorem Content.opened {root : Schema} {here : List Int} {k : Int} {i : Item} {gs ts : List Tale}
    (item : root.find? (here ++ [k]) = some i) (opens : Opens (here ++ [k]) i gs) (stays : ¬ i.Enters .gate)
    (rest : Content root here ts) : Content root here (gs ++ ts) := by
  cases opens with
  | free => exact rest
  | gated gated there => exact .checked item (.gate gated) there (fun _ => stays) rest

theorem closing_closer (level : Level) (here : List Int) (r : Report) : Closer level here (r.closing level here) := by
  unfold Report.closing
  cases r.ending with
  | passed => exact .ended rfl
  | signalled => exact .ended rfl
  | halted => exact .interrupted rfl

namespace Part
variable {root : Schema} {here : List Int} {items : List Item} {start cursor : Int} {deeper : List Int} {p q : Progress}

theorem lies_ahead (lies : RowAt root here items) (ahead : 0 ≤ start) :
    Lies root here (.row start deeper p (items.drop start.toNat)) := by
  intro n i found
  apply lies
  rw [itemAt?_nonneg (by omega), ← found, List.getElem?_drop]
  congr 1
  omega

theorem lies_back (lies : RowAt root here items) (inside : 0 ≤ start + items.length) :
    Lies root here (.row start deeper p (items.drop (start + items.length).toNat)) := by
  intro n i found
  rw [List.getElem?_drop] at found
  obtain ⟨short, -⟩ := List.getElem?_eq_some_iff.mp found
  apply lies
  rw [itemAt?_neg (by omega) (by omega), ← found]
  congr 1
  omega

theorem lies_head {i : Item} (lies : Lies root here (.row cursor deeper p (i :: items))) :
    root.find? (here ++ [cursor]) = some i := by
  have first := lies 0 i rfl
  rwa [Int.natCast_zero, Int.add_zero] at first

theorem lies_tail {i : Item} (lies : Lies root here (.row cursor deeper p (i :: items))) :
    Lies root here (.row (cursor + 1) [] q items) := by
  intro n j found
  have next := lies (n + 1) j found
  rwa [Int.natCast_add, Int.natCast_one, Int.add_comm (n : Int) 1, ← Int.add_assoc] at next

end Part

section
variable {root : Schema} {outer : List Int} {k j : Int} {i : Item} {row : List Item} {ts us : List Tale}

/-- Inside of an item that is gone on with there is a row. -/
theorem Item.Within.fresh {i : Item} {deeper : List Int} (within : i.Within deeper) (single : i.row? = none) :
    deeper = [] := by
  obtain rfl | ⟨row, looped, inner, -⟩ := within
  · rfl
  · cases single.symm.trans inner

theorem Bracket.block {gate : Option Condition} {gs : List Tale} (bracket : Bracket root .nested (outer ++ [k]) [] ts)
    (item : root.find? (outer ++ [k]) = some (.block row gate)) (opens : Opens (outer ++ [k]) (.block row gate) gs) :
    Content root outer (gs ++ ts) := by
  cases bracket with
  | intro there inside closes => exact .block item opens there (inside.content rfl) closes .nil

theorem Bracket.round {test : Condition} {gate : Option Condition} {u : View}
    (bracket : Bracket root .nested (outer ++ [k]) [] ts) (item : root.find? (outer ++ [k]) = some (.loop test row gate))
    (tested : u.cursors = outer ++ [k]) (rest : Content root outer us) :
    Content root outer ((.checked .test test true, u) :: (ts ++ us)) := by
  cases bracket with
  | intro there inside closes =>
    rw [List.cons_append, List.append_assoc]
    exact .round item tested there (inside.content rfl) closes rest

theorem Bracket.going {looped : Bool} {deeper : List Int} (bracket : Bracket root .nested (outer ++ [k]) (j :: deeper) ts)
    (item : root.find? (outer ++ [k]) = some i) (inner : i.row? = some (row, looped)) (rest : Content root outer us) :
    Going root outer (k :: j :: deeper) (ts ++ us) := by
  cases bracket with
  | intro there inside closes =>
    rw [List.cons_append, List.append_assoc]
    exact .into item inner (by rw [there, List.append_assoc]; rfl) inside closes rest

end

theorem Going.resume {root : Schema} {here resume : List Int} {ts : List Tale}
    (going : Going root here (resume.headD 0 :: resume.tail) ts) : Going root here resume ts := by
  cases resume with
  | nil => exact .fresh rfl (going.content rfl)
  | cons k deeper => exact going

/-- A part is told of as far as it comes: in brackets that are nested as its rows are. -/
theorem Chronicle.completes {root : Schema} {here : List Int} {t : Part} {ms : List (Moment σ)} {e : End}
    (chronicle : Chronicle here t ms e) (lies : t.Lies root here) (sound : t.Sound) (heard : Heard ms)
    (ends : e ≠ .error (.stopped .exhausted)) : Completes root here t (talesOf ms) e := by
  induction chronicle with
  | row_end =>
    obtain rfl | ⟨i, impossible, -⟩ := sound
    · exact .whole (.fresh rfl .nil)
    · cases impossible
  | row_onward first rest ihFirst ihRest =>
    rw [talesOf_append]
    have head := (ihFirst (Part.lies_head lies) (Part.sound_head sound) heard.left nofun).told _ _ rfl
    apply (ihRest (Part.lies_tail lies) (Part.sound_fresh _ _ _) heard.right ends).within
    intro closings going
    rw [List.append_assoc]
    exact head.append (going.content rfl)
  | row_leave first ih =>
    exact .whole ((ih (Part.lies_head lies) (Part.sound_head sound) heard nofun).told _ _ rfl)
  | row_failed first ih =>
    have head := ih (Part.lies_head lies) (Part.sound_head sound) heard ends
    exact head.within (fun closings tells => tells _ _ rfl)
  | ahead ahead row ih =>
    have whole := ih (Part.lies_ahead lies ahead) (Part.walk_sound_ahead ahead sound) heard ends
    exact whole.within (fun _ => id)
  | back back row again ihRow ihAgain =>
    rw [talesOf_append]
    have first := (ihRow (Part.lies_back lies sound.1) (Part.walk_sound_back back sound) heard.left nofun).told
    have whole := ihAgain (Part.lies_ahead lies (Int.le_refl 0)) (Part.sound_fresh _ _ _) heard.right ends
    apply whole.within
    intro closings going
    rw [List.append_assoc]
    exact Going.append first (going.content rfl)
  | back_end back row leaves ih =>
    have first := ih (Part.lies_back lies sound.1) (Part.walk_sound_back back sound) heard ends
    exact first.within (fun _ => id)
  | @free here deeper p i ms e free inside ih =>
    apply (ih lies sound heard ends).within
    intro closings tells outer k same
    cases deeper with
    | nil =>
      obtain impossible | free := free
      · exact absurd rfl impossible
      · exact .fresh rfl (tells outer k same [] (.free free))
    | cons j deeper => exact tells outer k same
  | @opened here p i c ms ns e gated gate inside ih =>
    rw [talesOf_append]
    apply (ih lies sound heard.right ends).within
    intro closings tells outer k same
    obtain ⟨-, stops⟩ | ⟨passed, v, answered, there, told⟩ := gate.tales
    · exact absurd rfl (stops true)
    · cases answered
      rw [told, List.append_assoc]
      exact .fresh rfl (tells outer k same _ (.gated gated there))
  | shut gated gate shut =>
    apply Completes.whole
    rintro outer k rfl
    refine .fresh rfl (gate.content lies (.gate gated) ?_)
    rintro rfl
    cases shut
  | marker check =>
    obtain rfl := Item.Within.fresh sound rfl
    apply Completes.whole
    rintro outer k rfl gs opens
    exact Content.opened lies opens id (check.content lies .marker (fun _ => id))
  | step step =>
    obtain rfl := Item.Within.fresh sound rfl
    apply Completes.whole
    rintro outer k rfl gs opens
    apply Content.opened lies opens id
    cases step with
    | told => exact .step lies rfl .nil
    | missed => exact .nil
    | failed => exact .nil
  | @block here deeper p items gate ms e body ih =>
    have inside := ih (rowAt_of_item lies rfl) (sound.row rfl) heard (by rintro rfl; exact ends rfl)
    apply inside.amid (fun v => End.ok_ofBlock)
    intro closings bracket
    cases deeper with
    | nil =>
      rintro outer k rfl gs opens
      exact Bracket.block bracket lies opens
    | cons j deeper =>
      rintro outer k rfl
      have going := Bracket.going bracket lies rfl .nil
      rwa [List.append_nil] at going
  | @loop here deeper p test items gate ms e loop ih =>
    apply (ih ⟨gate, lies⟩ (sound.row rfl) heard ends).within
    intro closings tells
    cases deeper with
    | nil =>
      rintro outer k rfl gs opens
      exact Content.opened lies opens id ((tells outer k rfl).content rfl)
    | cons j deeper => exact tells
  | @body here level resume supplied items w w' ms e ns f walk closes ih =>
    have heard : Heard (ms ++ ns) := heard.tail
    rw [talesOf_told, talesOf_append]
    cases closes with
    | @told v u u' =>
      have inside := (ih lies (Part.within_head sound) heard.left nofun).told
      exact .whole (.intro rfl (Going.resume inside) (closing_closer level here v.report))
    | @missed v u fault u' =>
      have inside := (ih lies (Part.within_head sound) heard.left nofun).told
      refine ⟨[(.interrupted level, { cursors := here })], nofun, List.forall_mem_singleton.mpr trivial, ?_⟩
      rw [talesOf_missed, talesOf_nil, List.append_nil, List.cons_append]
      exact .intro rfl (Going.resume inside) (.interrupted (List.append_nil here).symm)
    | @failed fault =>
      obtain ⟨rest, -, closing, inside⟩ := ih lies (Part.within_head sound) heard.left ends
      refine ⟨rest ++ [(.interrupted level, { cursors := here })], nofun, ?_, ?_⟩
      · exact List.forall_mem_append.mpr ⟨closing, List.forall_mem_singleton.mpr trivial⟩
      · rw [talesOf_nil, List.append_nil, List.cons_append, ← List.append_assoc]
        exact .intro rfl (Going.resume inside) (.interrupted (List.append_nil here).symm)
  | body_missed => exact absurd List.mem_cons_self (heard _ _ _ _ _)
  | spent => exact absurd rfl ends
  | tested check leaves =>
    obtain ⟨gate, item⟩ := lies
    apply Completes.whole
    rintro outer k rfl
    refine .fresh rfl (check.content item .test ?_)
    rintro rfl
    cases leaves
  | @round here test resume p items ms ns e q os f tested body again rest ihBody ihRest =>
    obtain ⟨u, rfl⟩ := End.ok_again again
    obtain ⟨gate, item⟩ := lies
    have first := (ihBody (rowAt_of_item item rfl) sound heard.right.left nofun).told
    apply (ihRest ⟨gate, item⟩ trivial heard.right.right ends).within
    rw [talesOf_append, talesOf_append]
    rintro closings tells outer k rfl
    have later := (tells outer k rfl).content rfl
    rw [List.append_assoc, List.append_assoc]
    cases tested with
    | checked check =>
      obtain ⟨-, stops⟩ | ⟨passed, v, answered, there, told⟩ := check.tales
      · exact absurd rfl (stops true)
      · cases answered
        rw [told, List.singleton_append]
        exact .fresh rfl (Bracket.round first item there later)
    | resumed =>
      rw [talesOf_nil, List.nil_append]
      exact Bracket.going first item rfl later
  | @round_end here test resume p items ms ns e tested body leaves ih =>
    obtain ⟨gate, item⟩ := lies
    have inside := ih (rowAt_of_item item rfl) sound heard.right (by rintro rfl; exact ends rfl)
    apply inside.amid (fun v => End.ok_ofLoop)
    rw [talesOf_append]
    rintro closings bracket outer k rfl
    rw [List.append_assoc]
    cases tested with
    | checked check =>
      obtain ⟨-, stops⟩ | ⟨passed, v, answered, there, told⟩ := check.tales
      · exact absurd rfl (stops true)
      · cases answered
        rw [told, List.singleton_append]
        have content := Bracket.round bracket item there .nil
        rw [List.append_nil] at content
        exact .fresh rfl content
    | resumed =>
      have going := Bracket.going bracket item rfl .nil
      rwa [List.append_nil] at going

end Engine

end Workflow
