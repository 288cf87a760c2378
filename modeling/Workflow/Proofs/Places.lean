import Workflow.Proofs.Requests

/-! Where a traversal does what it does. The cursors of a deed address the item that asks for it, also if the traversal
goes on from a position that counts from the end of a row. -/

namespace Workflow
open Engine (Query)

/-- The item at some cursors inside an item. -/
def Item.below? (i : Item) : List Int → Option Item
  | [] => some i
  | cursor :: deeper =>
    match i.row? with
    | none => none
    | some (row, _) =>
      match itemAt? row cursor with
      | none => none
      | some j => j.below? deeper

/-- The item that some cursors address. -/
def Schema.find? (items : Schema) : List Int → Option Item
  | [] => none
  | cursor :: deeper =>
    match itemAt? items cursor with
    | none => none
    | some i => i.below? deeper

/-- What an item may ask of the world. -/
inductive Item.Poses : Item → Query → Prop where
  | gate {i c} (gated : i.gate? = some c) : Poses i (.check .gate c)
  | step {id literal gate} : Poses (.step id literal gate) (.invoke id literal)
  | marker {signal test} : Poses (.marker signal test) (.check (.marker signal) test)
  | test {test items gate} : Poses (.loop test items gate) (.check .test test)

/-- What an item asks of the world at some cursors inside it. -/
def Item.Asks (i : Item) (cursors : List Int) (q : Query) : Prop := ∃ j, i.below? cursors = some j ∧ j.Poses q

/-- What a schema asks of the world at some cursors. -/
def Schema.Asks (items : Schema) (cursors : List Int) (q : Query) : Prop :=
  ∃ j, Schema.find? items cursors = some j ∧ j.Poses q

/-- Some cursors lead into a row, and none of them lies before the start of its row. -/
def Schema.Within (items : List Item) : List Int → Prop
  | [] => True
  | cursor :: deeper => 0 ≤ cursor + items.length ∧
    (deeper = [] ∨ ∃ i row looped, itemAt? items cursor = some i ∧ i.row? = some (row, looped) ∧ Within row deeper)

/-- Some cursors lead into the row inside an item. -/
def Item.Within (i : Item) (cursors : List Int) : Prop :=
  cursors = [] ∨ ∃ row looped, i.row? = some (row, looped) ∧ Schema.Within row cursors

theorem Item.Within.row {i : Item} {row : List Item} {looped : Bool} {cursors : List Int} (within : i.Within cursors)
    (inner : i.row? = some (row, looped)) : Schema.Within row cursors := by
  obtain rfl | ⟨other, _, same, within⟩ := within
  · trivial
  · cases inner.symm.trans same
    exact within

theorem itemAt?_nonneg {items : List Item} {cursor : Int} (ahead : 0 ≤ cursor) :
    itemAt? items cursor = items[cursor.toNat]? := by
  unfold itemAt?
  rw [if_neg (by omega)]

theorem itemAt?_neg {items : List Item} {cursor : Int} (back : cursor < 0) (inside : 0 ≤ cursor + items.length) :
    itemAt? items cursor = items[(cursor + items.length).toNat]? := by
  unfold itemAt?
  rw [if_pos back, if_neg (by omega)]

theorem Item.asks_of_row {i : Item} {row : List Item} {looped : Bool} {cursors : List Int} {q : Query}
    (inner : i.row? = some (row, looped)) (asks : Schema.Asks row cursors q) : i.Asks cursors q := by
  obtain ⟨j, found, poses⟩ := asks
  cases cursors with
  | nil => cases found
  | cons cursor deeper =>
    refine ⟨j, ?_, poses⟩
    rw [Item.below?, inner]
    exact found

theorem Schema.asks_of_item {items : Schema} {cursor : Int} {i : Item} {deeper : List Int} {q : Query}
    (there : itemAt? items cursor = some i) (asks : i.Asks deeper q) : Schema.Asks items (cursor :: deeper) q := by
  obtain ⟨j, below, poses⟩ := asks
  refine ⟨j, ?_, poses⟩
  rw [Schema.find?, there]
  exact below

theorem Schema.within_of_check {items : List Item} {inLoop : Bool} {depth : Nat} {cursors : List Int}
    (passes : checkCursors items inLoop depth cursors = .ok ()) : Schema.Within items cursors := by
  induction cursors generalizing items inLoop depth with
  | nil => trivial
  | cons cursor deeper ih =>
    rw [checkCursors] at passes
    by_cases parked : (deeper.isEmpty && inLoop && cursor == items.length) = true
    · simp only [Bool.and_eq_true, List.isEmpty_iff, beq_iff_eq] at parked
      obtain ⟨⟨rfl, -⟩, rfl⟩ := parked
      exact ⟨by omega, .inl rfl⟩
    rw [if_neg parked] at passes
    by_cases beyond : cursor ≥ items.length
    · rw [if_pos beyond] at passes
      cases passes
    rw [if_neg beyond] at passes
    cases found : itemAt? items cursor with
    | none =>
      rw [found] at passes
      cases passes
    | some i =>
      rw [found] at passes
      have inside : 0 ≤ cursor + items.length := by
        apply Int.not_lt.mp
        intro outside
        unfold itemAt? at found
        rw [if_pos (by omega), if_pos (by omega)] at found
        cases found
      refine ⟨inside, ?_⟩
      cases deeper with
      | nil => exact .inl rfl
      | cons next deeper =>
        simp only [List.isEmpty_cons, Bool.false_eq_true, if_false] at passes
        cases inner : i.row? with
        | none =>
          rw [inner] at passes
          cases passes
        | some pair =>
          rw [inner] at passes
          exact .inr ⟨i, pair.1, pair.2, found, inner, ih passes⟩

theorem Schema.Passes.within {items : Schema} {position : List Int} (passes : items.Passes position) :
    Schema.Within items position := by
  obtain rfl | checked := passes
  · trivial
  · unfold Schema.checkPosition at checked
    split at checked
    · cases checked
    · exact within_of_check checked

namespace Engine

def Deed.place : Deed σ → List Int
  | .checked _ _ place _ _ _ => place
  | .invoked _ _ _ place _ _ _ => place

namespace Part

/-- The cursors that lie deeper lead into the part. -/
def Sound : Part → Prop
  | .row _ deeper _ items => deeper = [] ∨ ∃ i, items.head? = some i ∧ i.Within deeper
  | .walk start deeper _ items => Schema.Within items (start :: deeper)
  | .item deeper _ i => i.Within deeper
  | .inside deeper _ i => i.Within deeper
  | .body _ resume _ items => Schema.Within items resume
  | .loop _ resume _ items => Schema.Within items resume

/-- What a part of a schema asks of the world at some cursors. -/
def Asks (cursors : List Int) (q : Query) : Part → Prop
  | .row cursor _ _ items => ∃ n i deep, cursors = (cursor + (n : Nat)) :: deep ∧ items[n]? = some i ∧ i.Asks deep q
  | .walk _ _ _ items => Schema.Asks items cursors q
  | .item _ _ i => i.Asks cursors q
  | .inside _ _ i => i.Asks cursors q
  | .body _ _ _ items => Schema.Asks items cursors q
  | .loop test _ _ items => cursors = [] ∧ q = .check .test test ∨ Schema.Asks items cursors q

theorem sound_fresh (cursor : Int) (p : Progress) (items : List Item) : Sound (.row cursor [] p items) := .inl rfl

theorem sound_head {cursor : Int} {deeper : List Int} {p : Progress} {i : Item} {items : List Item}
    (sound : Sound (.row cursor deeper p (i :: items))) : i.Within deeper := by
  obtain rfl | ⟨j, same, within⟩ := sound
  · exact .inl rfl
  · cases same
    exact within

theorem within_head {items : List Item} {resume : List Int} (within : Schema.Within items resume) :
    Schema.Within items (resume.headD 0 :: resume.tail) := by
  cases resume with
  | nil => exact ⟨by simp only [List.headD_nil]; omega, .inl rfl⟩
  | cons cursor deeper => exact within

end Part

/-- Every deed is at cursors within a part at which the part asks for it. -/
def Placed (here : List Int) (t : Part) (ds : List (Deed σ)) : Prop :=
  ∀ d ∈ ds, ∃ cursors, d.place = here ++ cursors ∧ t.Asks cursors d.query

namespace Placed
variable {here : List Int} {t u : Part} {ds es : List (Deed σ)}

theorem nil : Placed here t ([] : List (Deed σ)) := List.forall_mem_nil _

theorem append (first : Placed here t ds) (rest : Placed here t es) : Placed here t (ds ++ es) := by
  intro d member
  cases List.mem_append.mp member with
  | inl early => exact first d early
  | inr late => exact rest d late

theorem mono (placed : Placed here t ds) (asks : ∀ cursors q, t.Asks cursors q → u.Asks cursors q) : Placed here u ds := by
  intro d member
  obtain ⟨cursors, same, there⟩ := placed d member
  exact ⟨cursors, same, asks cursors d.query there⟩

theorem under {cursor : Int} (placed : Placed (here ++ [cursor]) t ds)
    (asks : ∀ cursors q, t.Asks cursors q → u.Asks (cursor :: cursors) q) : Placed here u ds := by
  intro d member
  obtain ⟨cursors, same, there⟩ := placed d member
  refine ⟨cursor :: cursors, ?_, asks cursors d.query there⟩
  rw [same, List.append_assoc]
  rfl

theorem here_of {d : Deed σ} (place : d.place = here) (asks : t.Asks [] d.query) : Placed here t [d] := by
  intro e member
  obtain rfl := List.mem_singleton.mp member
  exact ⟨[], by rw [place, List.append_nil], asks⟩

end Placed

theorem CheckMoments.deeds {here stepId role c} {ms : List (Moment σ)} {answer}
    (check : CheckMoments here stepId role c ms answer) : ∃ w a w', deedsOf ms = [.checked role c here w a w'] := by
  cases check with
  | told => exact ⟨_, _, _, rfl⟩
  | missed => exact ⟨_, _, _, rfl⟩
  | stopped => exact ⟨_, _, _, rfl⟩

theorem CheckMoments.placed {here stepId role c} {ms : List (Moment σ)} {answer} {t : Part}
    (check : CheckMoments here stepId role c ms answer) (asks : t.Asks [] (.check role c)) : Placed here t (deedsOf ms) := by
  obtain ⟨w, a, w', same⟩ := check.deeds
  rw [same]
  exact .here_of rfl asks

theorem StepMoments.deeds {here id literal supplied} {ms : List (Moment σ)} {e}
    (step : StepMoments here id literal supplied ms e) :
    ∃ w a w', deedsOf ms = [.invoked id literal supplied here w a w'] := by
  cases step with
  | told => exact ⟨_, _, _, rfl⟩
  | missed => exact ⟨_, _, _, rfl⟩
  | failed => exact ⟨_, _, _, rfl⟩

theorem CloseMoments.deeds {level here e f} {ms : List (Moment σ)} (closes : CloseMoments level here e ms f) :
    deedsOf ms = [] := by
  cases closes with
  | told => rfl
  | missed => rfl
  | failed => rfl

theorem TestMoments.placed {here stepId test resume} {ms : List (Moment σ)} {p : Progress} {items : List Item}
    (tested : TestMoments here stepId test resume ms) : Placed here (.loop test resume p items) (deedsOf ms) := by
  cases tested with
  | checked check => exact check.placed (.inl ⟨rfl, rfl⟩)
  | resumed => exact .nil

namespace Part
variable {start cursor : Int} {deeper : List Int} {p : Progress} {items : List Item}

theorem asks_ahead (ahead : 0 ≤ start) (cursors : List Int) (q : Query)
    (asks : Asks cursors q (.row start deeper p (items.drop start.toNat))) : Schema.Asks items cursors q := by
  obtain ⟨n, i, deep, rfl, found, asks⟩ := asks
  apply Schema.asks_of_item _ asks
  rw [itemAt?_nonneg (by omega), ← found, List.getElem?_drop]
  congr 1
  omega

theorem asks_back (inside : 0 ≤ start + items.length) (cursors : List Int) (q : Query)
    (asks : Asks cursors q (.row start deeper p (items.drop (start + items.length).toNat))) :
    Schema.Asks items cursors q := by
  obtain ⟨n, i, deep, rfl, found, asks⟩ := asks
  rw [List.getElem?_drop] at found
  obtain ⟨short, -⟩ := List.getElem?_eq_some_iff.mp found
  apply Schema.asks_of_item _ asks
  rw [itemAt?_neg (by omega) (by omega), ← found]
  congr 1
  omega

theorem walk_sound_ahead (ahead : 0 ≤ start) (sound : Sound (.walk start deeper p items)) :
    Sound (.row start deeper p (items.drop start.toNat)) := by
  obtain ⟨-, rfl | ⟨i, row, looped, found, inner, within⟩⟩ := sound
  · exact .inl rfl
  · refine .inr ⟨i, ?_, .inr ⟨row, looped, inner, within⟩⟩
    rw [List.head?_drop, ← itemAt?_nonneg ahead, found]

theorem walk_sound_back (back : start < 0) (sound : Sound (.walk start deeper p items)) :
    Sound (.row start deeper p (items.drop (start + items.length).toNat)) := by
  obtain ⟨inside, rfl | ⟨i, row, looped, found, inner, within⟩⟩ := sound
  · exact .inl rfl
  · refine .inr ⟨i, ?_, .inr ⟨row, looped, inner, within⟩⟩
    rw [List.head?_drop, ← itemAt?_neg back inside, found]

end Part

/-- Every deed of a part is at cursors at which the part asks for it. -/
theorem Chronicle.placed {here : List Int} {t : Part} {ms : List (Moment σ)} {e : End} (chronicle : Chronicle here t ms e)
    (sound : t.Sound) : Placed here t (deedsOf ms) := by
  induction chronicle with
  | row_end => exact .nil
  | @row_onward here cursor deeper p i items ms q ns e first rest ihFirst ihRest =>
    rw [deedsOf_append]
    have head := ihFirst (Part.sound_head sound)
    have tail := ihRest (Part.sound_fresh (cursor + 1) q items)
    apply (head.under _).append (tail.mono _)
    · intro cursors j asks
      exact ⟨0, i, cursors, by simp, rfl, asks⟩
    · rintro cursors j ⟨n, k, deep, rfl, found, asks⟩
      refine ⟨n + 1, k, deep, ?_, found, asks⟩
      congr 1
      omega
  | @row_leave here cursor deeper p i items ms r first ih =>
    have head := ih (Part.sound_head sound)
    exact head.under (fun cursors j asks => ⟨0, i, cursors, by simp, rfl, asks⟩)
  | @row_failed here cursor deeper p i items ms fault first ih =>
    have head := ih (Part.sound_head sound)
    exact head.under (fun cursors j asks => ⟨0, i, cursors, by simp, rfl, asks⟩)
  | ahead ahead row ih => exact (ih (Part.walk_sound_ahead ahead sound)).mono (Part.asks_ahead ahead)
  | back back row again ihRow ihAgain =>
    rw [deedsOf_append]
    have first := ihRow (Part.walk_sound_back back sound)
    have rest := ihAgain (Part.sound_fresh _ _ _)
    apply (first.mono _).append (rest.mono _)
    · exact Part.asks_back sound.1
    · exact Part.asks_ahead (Int.le_refl 0)
  | back_end back row ends ih =>
    exact (ih (Part.walk_sound_back back sound)).mono (Part.asks_back sound.1)
  | free free inside ih => exact ih sound
  | @opened here p i c ms ns e gated gate inside ih =>
    rw [deedsOf_append]
    have opening : Placed here (.item [] p i) (deedsOf ms) := gate.placed ⟨i, rfl, .gate gated⟩
    exact opening.append (ih sound)
  | shut gated gate shut => exact gate.placed ⟨_, rfl, .gate gated⟩
  | marker check => exact check.placed ⟨_, rfl, .marker⟩
  | step step =>
    obtain ⟨w, a, w', same⟩ := step.deeds
    rw [same]
    exact .here_of rfl ⟨_, rfl, .step⟩
  | block body ih => exact (ih (sound.row rfl)).mono (fun cursors q => Item.asks_of_row rfl)
  | loop loop ih =>
    apply (ih (sound.row rfl)).mono
    rintro cursors q (⟨rfl, rfl⟩ | asks)
    · exact ⟨_, rfl, .test⟩
    · exact Item.asks_of_row rfl asks
  | body walk closes ih =>
    rw [deedsOf_told, deedsOf_append, closes.deeds, List.append_nil]
    exact (ih (Part.within_head sound)).mono (fun cursors q => id)
  | body_missed => exact .nil
  | spent => exact .nil
  | tested check ends => exact check.placed (.inl ⟨rfl, rfl⟩)
  | round tested body again rest ihBody ihRest =>
    rw [deedsOf_append, deedsOf_append]
    apply tested.placed.append (Placed.append _ _)
    · exact (ihBody sound).mono (fun cursors q => .inr)
    · exact (ihRest trivial).mono (fun cursors q => id)
  | round_end tested body ends ih =>
    rw [deedsOf_append]
    exact tested.placed.append ((ih sound).mono (fun cursors q => .inr))

end Engine

namespace Request
open Engine (deedsOf)

/-- What a call does, at each place, is what its schema asks for there. -/
theorem placed (audience : Audience) (input : Script.Value) (fuel : Nat) (r : Request) (w : World)
    {b : Beginning} {w₁ : World} (begun : r.opening w = .ok b w₁) :
    ∀ d ∈ deedsOf (r.moments audience input fuel w), b.items.Asks d.place d.query := by
  obtain ⟨e, w', chronicle, -⟩ := Engine.run_chronicle (b.call.host audience) fuel r.level b.items b.position input w₁
  intro d member
  rw [moments, begun] at member
  obtain ⟨cursors, same, asks⟩ := chronicle.placed (opening_ok begun).2.within d member
  rw [same]
  exact asks

end Request

end Workflow
