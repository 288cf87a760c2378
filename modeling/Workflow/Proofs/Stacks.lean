import Workflow.Proofs.Positions
import Workflow.Proofs.Stacked

/-! The discipline of the stack. A row that passes or that a signal leaves takes off all that it put on; a row that is
halted leaves its position there, from which it can be gone on with; and nothing earlier is ever taken for a position to
go on from. -/

namespace Workflow.Engine
open Script (Value)

/-! Positions that the check of a position passes, said item by item. The check passes cursors below zero, so what is
said of them here is said above some bound. -/

/-- Cursors at which a row can be gone on with, and its start. -/
structure Admitted (least : Int) (row : List Item) (looped : Bool) (cursors : List Int) : Prop where
  checked : checkCursors row looped 0 cursors = .ok ()
  above : ∀ n ∈ cursors, least ≤ n

/-- Cursors from which an item can be gone on with. Without any, it starts afresh. -/
def Reenters (least : Int) (i : Item) (deeper : List Int) : Prop :=
  deeper = [] ∨ ∃ items looped, i.row? = some (items, looped) ∧ Admitted least items looped deeper

theorem checkCursors_depth {items : List Item} {looped : Bool} {depth : Nat} (other : Nat) {cursors : List Int}
    (checked : checkCursors items looped depth cursors = .ok ()) : checkCursors items looped other cursors = .ok () := by
  induction cursors generalizing items looped depth other with
  | nil => simp only [checkCursors]
  | cons cursor deeper ih =>
    simp only [checkCursors] at checked ⊢
    split at checked
    · next parked => rw [if_pos parked]
    · next unparked =>
      rw [if_neg unparked]
      split at checked
      · cases checked
      · next below =>
        rw [if_neg below]
        split at checked
        · cases checked
        · split at checked
          · next last => rw [if_pos last]
          · next more =>
            rw [if_neg more]
            split at checked
            · cases checked
            · exact ih _ checked

section
variable {least : Int} {row items rest : List Item} {i : Item} {looped : Bool} {cursor : Int} {skip : Nat}
variable {deeper : List Int}

theorem Admitted.fresh : Admitted least row looped [] := ⟨rfl, fun _ => nofun⟩

theorem Admitted.parked (low : least ≤ 0) : Admitted least row true [(row.length : Int)] := by
  refine ⟨?_, List.forall_mem_singleton.mpr (by omega)⟩
  simp only [checkCursors, List.isEmpty_nil, Bool.and_self, BEq.rfl, if_true]

theorem Reenters.fresh : Reenters least i [] := .inl rfl

theorem Reenters.above (reenters : Reenters least i deeper) : ∀ n ∈ deeper, least ≤ n := by
  obtain rfl | ⟨items, looped, row, admitted⟩ := reenters
  · exact fun _ => nofun
  · exact admitted.above

theorem Reenters.admitted (row : i.row? = some (items, looped)) (reenters : Reenters least i deeper) :
    Admitted least items looped deeper := by
  obtain rfl | ⟨items', looped', row', admitted⟩ := reenters
  · exact .fresh
  · rw [row] at row'
    cases row'
    exact admitted

theorem Reenters.flat (flat : i.row? = none) (reenters : Reenters least i deeper) : deeper = [] := by
  obtain rfl | ⟨items, looped, row, -⟩ := reenters
  · rfl
  · rw [flat] at row
    cases row

theorem below_of_itemAt? (found : itemAt? row cursor = some i) : -row.length ≤ cursor ∧ cursor < row.length := by
  unfold itemAt? at found
  split at found
  · split at found
    · cases found
    · omega
  · have bound := (List.getElem?_eq_some_iff.mp found).1
    omega

theorem Admitted.intro (looped : Bool) (found : itemAt? row cursor = some i) (bound : least ≤ cursor)
    (reenters : Reenters least i deeper) : Admitted least row looped (cursor :: deeper) := by
  refine ⟨?_, List.forall_mem_cons.mpr ⟨bound, reenters.above⟩⟩
  have within := below_of_itemAt? found
  have below : ¬ cursor ≥ row.length := by omega
  simp only [checkCursors, found, if_neg below]
  split
  · rfl
  · split
    · rfl
    · next more =>
      obtain rfl | ⟨items, looped, row, admitted⟩ := reenters
      · exact absurd rfl more
      · rw [row]
        exact checkCursors_depth 1 admitted.checked

theorem Admitted.cases (admitted : Admitted least row looped (cursor :: deeper)) :
    (deeper = [] ∧ looped = true ∧ cursor = row.length) ∨ ∃ i, itemAt? row cursor = some i ∧ Reenters least i deeper := by
  obtain ⟨checked, above⟩ := admitted
  simp only [checkCursors] at checked
  split at checked
  · next parked =>
    simp only [Bool.and_eq_true, List.isEmpty_iff, beq_iff_eq] at parked
    exact .inl ⟨parked.1.1, parked.1.2, parked.2⟩
  · split at checked
    · cases checked
    · split at checked
      · cases checked
      · next i found =>
        refine .inr ⟨i, found, ?_⟩
        split at checked
        · next last => exact .inl (List.isEmpty_iff.mp last)
        · split at checked
          · cases checked
          · next items looped row =>
            exact .inr ⟨items, looped, row, checkCursors_depth 0 checked, (List.forall_mem_cons.mp above).2⟩

/-- A position in the row of an item is one from which the item can be gone on with. -/
theorem Reenters.inside (row : i.row? = some (items, looped)) (admitted : Admitted least items false deeper) :
    Reenters least i deeper := by
  cases deeper with
  | nil => exact .fresh
  | cons cursor deeper =>
    have bound := admitted.above cursor List.mem_cons_self
    obtain ⟨-, impossible, -⟩ | ⟨j, found, reenters⟩ := admitted.cases
    · cases impossible
    · exact .inr ⟨items, looped, row, .intro looped found bound reenters⟩

/-- Where a row can be gone on with: at an item, or where no item has to be. -/
def Starts (least : Int) (row : List Item) (cursor : Int) (deeper : List Int) : Prop :=
  least ≤ cursor ∧ ((deeper = [] ∧ 0 ≤ cursor) ∨ ∃ i, itemAt? row cursor = some i ∧ Reenters least i deeper)

theorem Admitted.starts {rest : List Int} (low : least ≤ 0) (admitted : Admitted least row looped rest) :
    Starts least row (rest.headD 0) rest.tail := by
  cases rest with
  | nil => exact ⟨low, .inl ⟨rfl, Int.le_refl 0⟩⟩
  | cons cursor deeper =>
    refine ⟨admitted.above cursor List.mem_cons_self, ?_⟩
    obtain ⟨rfl, -, rfl⟩ | found := admitted.cases
    · exact .inl ⟨rfl, Int.natCast_nonneg _⟩
    · exact .inr found

/-- Cursors lie deeper only when there is an item that they go on inside. -/
def Fits (least : Int) (deeper : List Int) : Option Item → Prop
  | none => deeper = []
  | some i => Reenters least i deeper

theorem Fits.fresh (i : Option Item) : Fits least [] i := by
  cases i with
  | none => rfl
  | some i => exact Reenters.fresh

/-- Every item of a row that is left when some are skipped stands at its cursor. -/
structure Aligned (least : Int) (row : List Item) (cursor : Int) (skip : Nat) (items : List Item) : Prop where
  places : ∀ next i, items[skip + next]? = some i → itemAt? row (cursor + next) = some i
  above : least ≤ cursor

namespace Aligned

theorem head (aligned : Aligned least row cursor 0 (i :: rest)) : itemAt? row cursor = some i := by
  have found := aligned.places 0 i rfl
  rwa [Int.natCast_zero, Int.add_zero] at found

theorem tail (aligned : Aligned least row cursor 0 (i :: rest)) : Aligned least row (cursor + 1) 0 rest := by
  refine ⟨fun next j found => ?_, by have := aligned.above; omega⟩
  have place := aligned.places (next + 1) j (by rwa [Nat.zero_add] at found ⊢)
  rwa [Int.add_assoc, Int.add_comm 1, ← Int.natCast_succ]

theorem skipped (aligned : Aligned least row cursor (skip + 1) (i :: rest)) : Aligned least row cursor skip rest := by
  refine ⟨fun next j found => aligned.places next j ?_, aligned.above⟩
  rwa [Nat.add_right_comm, List.getElem?_cons_succ]

theorem whole (row : List Item) (positive : 0 ≤ cursor) (bound : least ≤ cursor) :
    Aligned least row cursor cursor.toNat row := by
  refine ⟨fun next i found => ?_, bound⟩
  have later : ¬ cursor + next < 0 := by omega
  have place : (cursor + next).toNat = cursor.toNat + next := by omega
  rw [itemAt?, if_neg later, place]
  exact found

/-- A cursor below zero stands for the item that it reaches from the end, and so do those that follow it. -/
theorem fromEnd (row : List Item) (inside : 0 ≤ cursor + row.length) (bound : least ≤ cursor) :
    Aligned least row cursor (cursor + row.length).toNat row := by
  refine ⟨fun next i found => ?_, bound⟩
  have below : (cursor + row.length).toNat + next < row.length := (List.getElem?_eq_some_iff.mp found).1
  have still : cursor + next < 0 := by omega
  have within : ¬ cursor + next + row.length < 0 := by omega
  have place : (cursor + next + row.length).toNat = (cursor + row.length).toNat + next := by omega
  rw [itemAt?, if_pos still, if_neg within, place]
  exact found

end Aligned

end

/-! What work with the stack has to do with work without it. -/

/-- From a stack on, some work ends as other work does that has no stack, and it makes lawful calls only. What it
gives, and the stack that it leaves, are as `Q` says. -/
def Mirrors (stack : List Int) (x : Work (Stacked σ) α) (y : Work σ β) (Q : α → β → List Int → Prop) : Prop :=
  ∀ w entries, (∀ e ∈ entries, e.Lawful) → ∃ stack' entries', (∀ e ∈ entries', e.Lawful) ∧
    ((∃ a b w', x ⟨w, stack, entries⟩ = .ok a ⟨w', stack', entries'⟩ ∧ y w = .ok b w' ∧ Q a b stack') ∨
      ∃ fault w', x ⟨w, stack, entries⟩ = .error fault ⟨w', stack', entries'⟩ ∧ y w = .error fault w')

/-- A world with a stack beside the same world without one. -/
def Beside (stack : List Int) (s : Stacked σ) (w : σ) : Prop :=
  s.world = w ∧ s.stack = stack ∧ ∀ e ∈ s.entries, e.Lawful

theorem stacked_agrees (host : Host σ) (stack : List Int) :
    HostsAgreeUnless (fun _ => False) (Beside stack) host.stacked host := by
  have lifted : ∀ {α : Type} (x : Work σ α), Agree (Beside stack) (Stacked.lift x) x := by
    rintro α x s w ⟨rfl, rfl, lawful⟩
    obtain ⟨a, w', found⟩ := exists_answered (x s.world)
    refine ⟨a, { s with world := w' }, w', ?_, found, rfl, rfl, lawful⟩
    unfold Stacked.lift
    cases a <;> rw [found] <;> rfl
  exact ⟨fun _ _ _ => Agree.iff_unless.mp (lifted _), fun _ _ _ _ => Agree.iff_unless.mp (lifted _),
    fun _ _ => Agree.iff_unless.mp (lifted _)⟩

namespace Mirrors
variable {stack : List Int} {x : Work (Stacked σ) α} {y : Work σ β} {Q Q' : α → β → List Int → Prop}

theorem mono (mirrors : Mirrors stack x y Q) (weaker : ∀ a b left, Q a b left → Q' a b left) :
    Mirrors stack x y Q' := by
  intro w entries lawful
  obtain ⟨stack', entries', lawful', ⟨a, b, w', left, right, ends⟩ | failed⟩ := mirrors w entries lawful
  · exact ⟨stack', entries', lawful', .inl ⟨a, b, w', left, right, weaker a b stack' ends⟩⟩
  · exact ⟨stack', entries', lawful', .inr failed⟩

theorem pure {a : α} {b : β} (ends : Q a b stack) : Mirrors stack (Pure.pure a) (Pure.pure b : Work σ β) Q :=
  fun w entries lawful => ⟨stack, entries, lawful, .inl ⟨a, b, w, rfl, rfl, ends⟩⟩

theorem throw (fault : Fault) :
    Mirrors stack (throwThe Fault fault) (throwThe Fault fault : Work σ β) Q :=
  fun w entries lawful => ⟨stack, entries, lawful, .inr ⟨fault, w, rfl, rfl⟩⟩

theorem bind {f : α → Work (Stacked σ) γ} {g : β → Work σ δ} {R : γ → δ → List Int → Prop}
    (first : Mirrors stack x y Q) (rest : ∀ a b left, Q a b left → Mirrors left (f a) (g b) R) :
    Mirrors stack (x >>= f) (y >>= g) R := by
  intro w entries lawful
  obtain ⟨stack', entries', lawful', ⟨a, b, w', left, right, ends⟩ | ⟨fault, w', left, right⟩⟩ := first w entries lawful
  · simp only [Bind.bind, EStateM.bind, left, right]
    exact rest a b stack' ends w' entries' lawful'
  · simp only [Bind.bind, EStateM.bind, left, right]
    exact ⟨stack', entries', lawful', .inr ⟨fault, w', rfl, rfl⟩⟩

theorem of_agree {y : Work σ α} (agree : AgreeUnless (fun _ => False) (Beside stack) x y) :
    Mirrors stack x y (fun a b left => a = b ∧ left = stack) := by
  intro w entries lawful
  obtain ⟨a, ⟨w', left, entries'⟩, _, ran, plain, rfl, rfl, lawful'⟩ | ⟨_, _, _, impossible⟩ :=
    agree.agrees ⟨w, stack, entries⟩ w ⟨rfl, rfl, lawful⟩
  · cases a with
    | ok a => exact ⟨left, entries', lawful', .inl ⟨a, a, w', ran, plain, rfl, rfl⟩⟩
    | error fault => exact ⟨left, entries', lawful', .inr ⟨fault, w', ran, plain⟩⟩
  · exact impossible.elim

theorem onStack {act : List Int → Work (Stacked σ) α} (mirrors : Mirrors stack (act stack) y Q) :
    Mirrors stack (Stacked.onStack act) y Q := mirrors

theorem restack {change : List Int → List Int} {f : Unit → Work (Stacked σ) α}
    (rest : Mirrors (change stack) (f ()) y Q) : Mirrors stack (Stacked.restack change >>= f) y Q := rest

/-- A call is lawful when a row that it enters afresh finds no cursor above its level. -/
theorem enter {level : Nat} {fresh : Bool} {f : Unit → Work (Stacked σ) α} (lawful : fresh = true → stack.length = level)
    (rest : Mirrors stack (f ()) y Q) : Mirrors stack (Stacked.enter level fresh >>= f) y Q := by
  intro w entries earlier
  refine rest w (entries ++ [⟨level, stack, fresh⟩]) (fun e member => ?_)
  obtain before | rfl := (List.mem_append.mp member).imp_right List.mem_singleton.mp
  · exact earlier e before
  · exact lawful

end Mirrors

/-- What the stack is when a part has ended: it holds the position that the part was halted at, or is clean. -/
def Leaves (clean : List Int → Prop) (outer : List Int) (valid : List Int → Prop) (left : List Int) :
    Option (List Int) → Prop
  | none => clean left
  | some cursors => left = outer ++ cursors ∧ valid cursors

/-- A part of a row ends with one cursor of the row on the stack, unless it was halted. -/
abbrev RowLeaves (least : Int) (outer : List Int) (row : List Item) : List Int → Option (List Int) → Prop :=
  Leaves (fun left => ∃ cursor, left = outer ++ [cursor]) outer (fun cursors => cursors ≠ [] ∧ Admitted least row false cursors)

abbrev ItemLeaves (least : Int) (here : List Int) (i : Item) : List Int → Option (List Int) → Prop :=
  Leaves (· = here) here (Reenters least i)

/-- A whole row takes its cursor off the stack, unless it was halted. -/
abbrev BodyLeaves (least : Int) (outer : List Int) (row : List Item) : List Int → Option (List Int) → Prop :=
  Leaves (· = outer) outer (fun cursors => cursors ≠ [] ∧ Admitted least row false cursors)

/-- A part with the stack gives what it gives without, apart from its position, which it leaves on the stack. -/
def Verdict.LeftBy (leaves : List Int → Option (List Int) → Prop) (v v' : Verdict) (left : List Int) : Prop :=
  v = v'.bare ∧ leaves left v'.cursors?

def Report.LeftBy (leaves : List Int → Option (List Int) → Prop) (r r' : Report) (left : List Int) : Prop :=
  r = r'.bare ∧ leaves left r'.cursors?

theorem Report.under_bare (cursor : Int) (r : Report) : (r.under cursor).bare = r.bare := by
  obtain ⟨stepId, ending⟩ := r
  cases ending <;> rfl

theorem Report.under_cursors? (cursor : Int) (r : Report) : (r.under cursor).cursors? = r.cursors?.map (cursor :: ·) := by
  obtain ⟨stepId, ending⟩ := r
  cases ending <;> rfl

/-- What is told of the end of a row is the same, whether its position is in the report or on the stack. -/
theorem Report.closing_bare {outer left : List Int} {valid : List Int → Prop} {r : Report}
    (leaves : Leaves (· = outer) outer valid left r.cursors?) (level : Level) :
    r.bare.closing level left = r.closing level outer := by
  obtain ⟨stepId, ending⟩ := r
  cases ending with
  | passed =>
    obtain rfl : left = outer := leaves
    rfl
  | signalled =>
    obtain rfl : left = outer := leaves
    rfl
  | halted halt cursors =>
    obtain ⟨rfl, -⟩ : left = outer ++ cursors ∧ _ := leaves
    simp only [Report.closing, Report.bare, List.append_nil]

section
variable (host : Host σ) (resumed : Bool) {least : Int}

theorem check_mirrors (here : List Int) (stepId : String) (role : Role) (c : Condition) :
    Mirrors here (check host.stacked here stepId role c) (check host here stepId role c)
      (fun a b left => a = b ∧ left = here) :=
  .of_agree (check_agree (stacked_agrees host here) here stepId role c)

theorem emit_mirrors (here : List Int) (event : Event) (v : View) :
    Mirrors here (host.stacked.emit event v) (host.emit event v) (fun a b left => a = b ∧ left = here) :=
  .of_agree ((stacked_agrees host here).emit event v)

theorem whenOpen_mirrors {here : List Int} {p : Progress} {gate : Option Condition} {leaves}
    {x : Work (Stacked σ) Verdict} {y : Work σ Verdict} (inside : Mirrors here x y (Verdict.LeftBy leaves))
    (passed : leaves here none) (parked : leaves here (some [])) :
    Mirrors here (whenOpen host.stacked here p gate x) (whenOpen host here p gate y) (Verdict.LeftBy leaves) := by
  cases gate with
  | none => exact inside
  | some c =>
    refine (check_mirrors host here p.stepId .gate c).bind ?_
    rintro _ (halt | ⟨_ | _⟩) _ ⟨rfl, rfl⟩
    · exact .pure ⟨rfl, parked⟩
    · exact .pure ⟨rfl, passed⟩
    · exact inside

theorem runMarker_mirrors (here : List Int) (p : Progress) (signal : Signal) (test : Condition) :
    Mirrors here (runMarker host.stacked here p signal test) (runMarker host here p signal test)
      (Verdict.LeftBy (ItemLeaves least here (.marker signal test))) := by
  refine (check_mirrors host here p.stepId (.marker signal) test).bind ?_
  rintro _ (halt | ⟨_ | _⟩) _ ⟨rfl, rfl⟩
  · exact .pure ⟨rfl, (List.append_nil _).symm, .fresh⟩
  · exact .pure ⟨rfl, rfl⟩
  · exact .pure ⟨rfl, rfl⟩

theorem runStep_mirrors (here : List Int) (p : Progress) (id : String) (literal : Value) (gate : Option Condition) :
    Mirrors here (runStep host.stacked here p id literal) (runStep host here p id literal)
      (Verdict.LeftBy (ItemLeaves least here (.step id literal gate))) := by
  have asked := Mirrors.of_agree ((stacked_agrees host here).invoke id literal p.supplied here)
  refine asked.bind ?_
  rintro _ (_ | halt | halt) _ ⟨rfl, rfl⟩
  · refine (emit_mirrors host _ _ _).bind ?_
    rintro _ _ _ ⟨rfl, rfl⟩
    exact .pure ⟨rfl, rfl⟩
  · refine (emit_mirrors host _ _ _).bind ?_
    rintro _ _ _ ⟨rfl, rfl⟩
    exact .pure ⟨rfl, (List.append_nil _).symm, .fresh⟩
  · refine (emit_mirrors host _ _ _).bind ?_
    rintro _ _ _ ⟨rfl, rfl⟩
    exact .pure ⟨rfl, (List.append_nil _).symm, .fresh⟩

theorem walkRow_mirrors {outer : List Int} {row : List Item} {cursor : Int} {deeper : List Int} {p : Progress}
    {walk : Int → Nat → Bool → Progress → Work (Stacked σ) Verdict}
    {stroll : Int → Nat → List Int → Progress → Work σ Verdict}
    (inside : ∀ found cursor skip deeper p, Aligned least row cursor skip row → Fits least deeper row[skip]? →
      Mirrors (outer ++ found :: deeper) (walk cursor skip (!deeper.isEmpty) p) (stroll cursor skip deeper p)
        (Verdict.LeftBy (RowLeaves least outer row)))
    (low : least ≤ 0) (starts : Starts least row cursor deeper) :
    Mirrors (outer ++ cursor :: deeper)
      (walkRow row.length (fun cursor skip deeper p => walk cursor skip (!deeper.isEmpty) p) cursor deeper p)
      (walkRow row.length stroll cursor deeper p) (Verdict.LeftBy (RowLeaves least outer row)) := by
  obtain ⟨bound, starts⟩ := starts
  unfold walkRow
  by_cases negative : cursor < 0
  · obtain ⟨-, positive⟩ | ⟨i, found, reenters⟩ := starts
    · omega
    have within : 0 ≤ cursor + row.length := by have := below_of_itemAt? found; omega
    have reached : row[(cursor + row.length).toNat]? = some i := by
      rwa [itemAt?, if_pos negative, if_neg (by omega)] at found
    simp only [if_pos negative]
    refine (inside cursor cursor _ deeper p (.fromEnd row within bound) (by rw [reached]; exact reenters)).bind ?_
    rintro _ (q | r) left ⟨rfl, leaves⟩
    · obtain ⟨found, rfl⟩ : ∃ found, left = outer ++ [found] := leaves
      exact inside found 0 0 [] q (.whole row (Int.le_refl 0) low) (.fresh _)
    · exact .pure ⟨rfl, leaves⟩
  · have fits : Fits least deeper row[cursor.toNat]? := by
      obtain ⟨rfl, -⟩ | ⟨i, found, reenters⟩ := starts
      · exact .fresh _
      · rw [itemAt?, if_neg negative] at found
        rw [found]
        exact reenters
    simp only [if_neg negative]
    exact inside cursor cursor _ deeper p (.whole row (by omega) bound) fits

theorem hold_mirrors {outer rest : List Int} {f : Unit → Work (Stacked σ) α} {y : Work σ β} {Q : α → β → List Int → Prop}
    (mirrors : Mirrors (outer ++ rest.headD 0 :: rest.tail) (f ()) y Q) :
    Mirrors (outer ++ rest) (Stacked.hold outer.length >>= f) y Q := by
  intro w entries lawful
  have held := mirrors w entries lawful
  cases rest with
  | nil =>
    rw [List.append_nil]
    simp only [Bind.bind, EStateM.bind, Stacked.hold, Stacked.onStack, if_pos (Nat.le_refl _), Stacked.push,
      Stacked.restack]
    exact held
  | cons start deeper =>
    have long : ¬ (outer ++ start :: deeper).length ≤ outer.length := by
      rw [List.length_append, List.length_cons]
      omega
    simp only [Bind.bind, EStateM.bind, Stacked.hold, Stacked.onStack, if_neg long]
    exact held

theorem Verdict.LeftBy.report {leaves : List Int → Option (List Int) → Prop} {v v' : Verdict} {left : List Int}
    (ends : v.LeftBy leaves v' left) : v.report = v'.report.bare := by
  obtain ⟨rfl, -⟩ := ends
  cases v' <;> rfl

theorem Verdict.report_cursors? (v : Verdict) : v.report.cursors? = v.cursors? := by
  cases v <;> rfl

theorem Verdict.bare_cursors? (v : Verdict) : v.bare.cursors?.isNone = v.cursors?.isNone := by
  obtain p | ⟨stepId, ending⟩ := v
  · rfl
  · cases ending <;> rfl

theorem release_mirrors {outer left : List Int} {row : List Item} {v v' : Verdict} {f : Unit → Work (Stacked σ) α}
    {y : Work σ β} {Q : α → β → List Int → Prop} (ends : v.LeftBy (RowLeaves least outer row) v' left)
    (rest : ∀ left, BodyLeaves least outer row left v'.report.cursors? → Mirrors left (f ()) y Q) :
    Mirrors left (Stacked.release v >>= f) y Q := by
  obtain ⟨rfl, leaves⟩ := ends
  rw [Verdict.report_cursors?] at rest
  unfold Stacked.release
  rw [Verdict.bare_cursors?]
  cases halted : v'.cursors? with
  | none =>
    rw [halted] at leaves rest
    obtain ⟨cursor, rfl⟩ : ∃ cursor, left = outer ++ [cursor] := leaves
    refine .restack ?_
    rw [List.dropLast_concat]
    exact rest outer rfl
  | some cursors =>
    rw [halted] at leaves rest
    exact rest left leaves

theorem runRow_mirrors {outer rest : List Int} {row : List Item} {looped : Bool} {supplied : Value}
    {walk : Int → Nat → Bool → Progress → Work (Stacked σ) Verdict}
    {stroll : Int → Nat → List Int → Progress → Work σ Verdict}
    (inside : ∀ found cursor skip deeper p, Aligned least row cursor skip row → Fits least deeper row[skip]? →
      Mirrors (outer ++ found :: deeper) (walk cursor skip (!deeper.isEmpty) p) (stroll cursor skip deeper p)
        (Verdict.LeftBy (RowLeaves least outer row)))
    (low : least ≤ 0) (admitted : Admitted least row looped rest) :
    Mirrors (outer ++ rest) (Stacked.runRow host resumed outer.length supplied row.length walk)
      (runRow host (levelAt resumed outer.length) outer rest supplied row.length stroll)
      (Report.LeftBy (BodyLeaves least outer row)) := by
  have place : (outer ++ rest.headD 0 :: rest.tail).getD outer.length 0 = rest.headD 0 := by simp
  have above : (outer ++ rest.headD 0 :: rest.tail).drop (outer.length + 1) = rest.tail := by simp
  refine hold_mirrors (.onStack ?_)
  rw [place, above]
  refine (emit_mirrors host _ _ _).bind ?_
  rintro _ _ _ ⟨rfl, rfl⟩
  refine (walkRow_mirrors inside low (admitted.starts low)).bind ?_
  rintro v v' left ends
  refine release_mirrors ends (fun left leaves => .onStack ?_)
  rw [ends.report, Report.closing_bare leaves]
  refine (emit_mirrors host _ _ _).bind ?_
  rintro _ _ _ ⟨rfl, rfl⟩
  exact .pure ⟨rfl, leaves⟩

theorem testRound_mirrors (here : List Int) (stepId : String) (test : Condition) (deeper : List Int) :
    Mirrors (here ++ deeper) (Stacked.testRound host stepId test (!deeper.isEmpty)) (testRound host here stepId test deeper)
      (fun a b left => a = b ∧ left = here ++ deeper ∧ (b = .ok true ∨ deeper = [])) := by
  cases deeper with
  | nil =>
    refine Mirrors.mono (Q := fun a b left => a = b ∧ left = here) ?_ ?_
    · rw [List.append_nil]
      exact check_mirrors host here stepId .test test
    · rintro a b left ⟨rfl, rfl⟩
      exact ⟨rfl, (List.append_nil _).symm, .inr rfl⟩
  | cons cursor deeper => exact .pure ⟨rfl, rfl, .inl rfl⟩

theorem iterate_mirrors {here : List Int} {test : Condition} {items : List Item} (gate : Option Condition)
    {body : Bool → Value → Work (Stacked σ) Report} {stroll : List Int → Value → Work σ Report}
    (inside : ∀ resume supplied, Admitted least items true resume →
      Mirrors (here ++ resume) (body (!resume.isEmpty) supplied) (stroll resume supplied)
        (Report.LeftBy (BodyLeaves least here items)))
    (fuel : Nat) (low : least ≤ 0) {deeper : List Int} (admitted : Admitted least items true deeper) (p : Progress) :
    Mirrors (here ++ deeper) (Stacked.iterate host test items.length body fuel (!deeper.isEmpty) p)
      (iterate host here test items.length stroll fuel deeper p)
      (Verdict.LeftBy (ItemLeaves least here (.loop test items gate))) := by
  induction fuel generalizing deeper p with
  | zero =>
    simp only [Stacked.iterate, iterate]
    exact .throw _
  | succ fuel ih =>
    have again : ∀ p, Mirrors here (Stacked.iterate host test items.length body fuel false p)
        (iterate host here test items.length stroll fuel [] p) (Verdict.LeftBy (ItemLeaves least here (.loop test items gate))) := by
      intro p
      have next := ih (Admitted.fresh : Admitted least items true []) p
      rwa [List.append_nil] at next
    simp only [Stacked.iterate, iterate]
    refine (testRound_mirrors host here p.stepId test deeper).bind ?_
    rintro _ (halt | ⟨_ | _⟩) _ ⟨rfl, rfl, held | rfl⟩
    · cases held
    · rw [List.append_nil]
      exact .restack (.pure ⟨rfl, rfl, .inr ⟨items, true, rfl, .parked low⟩⟩)
    · cases held
    · rw [List.append_nil]
      exact .pure ⟨rfl, rfl⟩
    all_goals
      refine (inside _ p.supplied admitted).bind ?_
      rintro _ ⟨stepId, ending⟩ left ⟨rfl, leaves⟩
      cases ending with
      | passed =>
        obtain rfl : left = here := leaves
        exact again _
      | halted halt cursors =>
        obtain ⟨rfl, valid⟩ : left = here ++ cursors ∧ _ := leaves
        exact .pure ⟨rfl, rfl, .inside rfl valid.2⟩
      | signalled signal =>
        obtain rfl : left = here := leaves
        cases signal with
        | breakLoop => exact .pure ⟨rfl, rfl⟩
        | continueLoop => exact again _

theorem gated_mirrors {here deeper : List Int} {p : Progress} (gate : Option Condition) {leaves}
    {x : Work (Stacked σ) Verdict} {y : Work σ Verdict} (inside : Mirrors (here ++ deeper) x y (Verdict.LeftBy leaves))
    (passed : leaves here none) (parked : leaves here (some [])) :
    Mirrors (here ++ deeper) (whenOpen host.stacked (here ++ deeper) p (if !deeper.isEmpty then none else gate) x)
      (whenOpen host here p (if deeper.isEmpty then gate else none) y) (Verdict.LeftBy leaves) := by
  cases deeper with
  | nil =>
    rw [List.append_nil] at inside ⊢
    exact whenOpen_mirrors host inside passed parked
  | cons cursor deeper => exact inside

theorem parked_here {here : List Int} {i : Item} : ItemLeaves least here i here (some []) :=
  ⟨(List.append_nil here).symm, .fresh⟩

theorem leaveBlock_mirrors {here left : List Int} {items : List Item} {gate : Option Condition} {p : Progress} {r r' : Report}
    (ends : r.LeftBy (BodyLeaves least here items) r' left) :
    (leaveBlock p r).LeftBy (ItemLeaves least here (.block items gate)) (leaveBlock p r') left := by
  obtain ⟨rfl, leaves⟩ := ends
  obtain ⟨stepId, ending⟩ := r'
  cases ending with
  | passed => exact ⟨rfl, leaves⟩
  | signalled signal => exact ⟨rfl, leaves⟩
  | halted halt cursors => exact ⟨rfl, leaves.1, .inside rfl leaves.2.2⟩

theorem fresh_of_isEmpty {here deeper : List Int} (fresh : (!!deeper.isEmpty) = true) : (here ++ deeper).length = here.length := by
  rw [Bool.not_not, List.isEmpty_iff] at fresh
  rw [fresh, List.append_nil]

/-- The position of an item's halt, behind its cursor, is one of the row. -/
theorem under_leaves {outer left : List Int} {row rest : List Item} {i : Item} {cursor : Int} {r : Report}
    (aligned : Aligned least row cursor 0 (i :: rest)) (leaves : ItemLeaves least (outer ++ [cursor]) i left r.cursors?) :
    RowLeaves least outer row left (r.under cursor).cursors? := by
  rw [Report.under_cursors?]
  cases halted : r.cursors? with
  | none =>
    rw [halted] at leaves
    exact ⟨cursor, leaves⟩
  | some cursors =>
    rw [halted] at leaves
    obtain ⟨rfl, reenters⟩ : left = outer ++ [cursor] ++ cursors ∧ Reenters least i cursors := leaves
    exact ⟨List.append_assoc .., List.cons_ne_nil cursor cursors, .intro false aligned.head aligned.above reenters⟩

mutual

theorem runItem_mirrors (low : least ≤ 0) (fuel : Nat) (here : List Int) (level : Nat) (depth : here.length = level + 1) (deeper : List Int)
    (p : Progress) : (i : Item) → Reenters least i deeper →
    Mirrors (here ++ deeper) (Stacked.runItem host resumed fuel level (!deeper.isEmpty) p i)
      (runItem host fuel here deeper p i) (Verdict.LeftBy (ItemLeaves least here i))
  | .marker signal test, reenters => by
    obtain rfl := reenters.flat rfl
    rw [List.append_nil]
    simp only [Stacked.runItem, runItem]
    exact .onStack (runMarker_mirrors host here p signal test)
  | .step id literal gate, reenters => by
    obtain rfl := reenters.flat rfl
    rw [List.append_nil]
    simp only [Stacked.runItem, runItem]
    exact .onStack (whenOpen_mirrors host (runStep_mirrors host here p id literal gate) rfl parked_here)
  | .block items gate, reenters => by
    have nested : Level.nested = levelAt resumed here.length := by rw [depth, levelAt]
    simp only [Stacked.runItem, runItem]
    refine .onStack (gated_mirrors host gate ?_ rfl parked_here)
    rw [← depth, nested]
    refine .enter fresh_of_isEmpty (Mirrors.bind ?_ (fun r r' left ends => .pure (leaveBlock_mirrors ends)))
    exact runRow_mirrors host resumed (fun found cursor skip inner q => runItems_mirrors low fuel here items items found cursor skip inner q)
      low (reenters.admitted rfl)
  | .loop test items gate, reenters => by
    have nested : Level.nested = levelAt resumed here.length := by rw [depth, levelAt]
    simp only [Stacked.runItem, runItem]
    refine .onStack (gated_mirrors host gate ?_ rfl parked_here)
    refine iterate_mirrors host gate (fun resume supplied admitted => ?_) fuel low (reenters.admitted rfl) p
    rw [← depth, nested]
    refine .enter fresh_of_isEmpty ?_
    exact runRow_mirrors host resumed (fun found cursor skip inner q => runItems_mirrors low fuel here items items found cursor skip inner q)
      low admitted

theorem runItems_mirrors (low : least ≤ 0) (fuel : Nat) (outer : List Int) (row : List Item) : (items : List Item) →
    ∀ found cursor skip deeper p, Aligned least row cursor skip items → Fits least deeper items[skip]? →
      Mirrors (outer ++ found :: deeper)
        (Stacked.runItems host resumed fuel outer.length cursor skip (!deeper.isEmpty) p items)
        (runItems host fuel outer cursor skip deeper p items) (Verdict.LeftBy (RowLeaves least outer row))
  | [], found, cursor, skip, deeper, p, _, fits => by
    obtain rfl : deeper = [] := fits
    simp only [Stacked.runItems, runItems]
    exact .pure ⟨rfl, found, rfl⟩
  | item :: rest, found, cursor, skip + 1, deeper, p, aligned, fits => by
    simp only [Stacked.runItems, runItems]
    exact runItems_mirrors low fuel outer row rest found cursor skip deeper p aligned.skipped fits
  | item :: rest, found, cursor, 0, deeper, p, aligned, fits => by
    have place : (outer ++ found :: deeper).set outer.length cursor = outer ++ [cursor] ++ deeper := by simp
    have depth : (outer ++ [cursor]).length = outer.length + 1 := by simp
    simp only [Stacked.runItems, runItems]
    refine .restack ?_
    rw [place]
    refine (runItem_mirrors low fuel (outer ++ [cursor]) outer.length depth deeper p item fits).bind ?_
    rintro _ (q | r) left ⟨rfl, leaves⟩
    · obtain rfl : left = outer ++ [cursor] := leaves
      exact runItems_mirrors low fuel outer row rest cursor (cursor + 1) 0 [] q aligned.tail (.fresh _)
    · have bare : Verdict.leave r.bare = (Verdict.leave (r.under cursor)).bare := by
        rw [Verdict.bare, Report.under_bare]
      exact .pure ⟨bare, under_leaves aligned leaves⟩

end

theorem advance_mirrors (low : least ≤ 0) (fuel : Nat) (outer : List Int) (items : List Item) {looped : Bool}
    {rest : List Int} (supplied : Value) (admitted : Admitted least items looped rest) :
    Mirrors (outer ++ rest) (Stacked.advance host resumed fuel outer.length items supplied)
      (runRow host (levelAt resumed outer.length) outer rest supplied items.length
        (fun cursor skip deeper p => runItems host fuel outer cursor skip deeper p items))
      (Report.LeftBy (BodyLeaves least outer items)) :=
  runRow_mirrors host resumed (fun found cursor skip inner q =>
    runItems_mirrors host resumed low fuel outer items items found cursor skip inner q) low admitted

end

/-- How a call for the row of some items leaves a stack whose first cursors are those of the rows around it. -/
structure Disciplined (items : List Item) (outer rest : List Int) (r : Report) (left : List Int) : Prop where
  kept : left.take outer.length = outer
  clean : r.cursors? = none → left.length = outer.length
  halted : ∀ cursors, r.cursors? = some cursors → outer.length + 1 ≤ left.length ∧ left.drop outer.length = cursors
  valid : r.cursors? ≠ none → Schema.checkPosition items (left.drop outer.length) = .ok ()
  admitted : r.cursors? ≠ none → (∀ n ∈ rest, 0 ≤ n) →
    ∃ position : Position, left.drop outer.length = position.cursors ∧ Schema.Admits items position

theorem Disciplined.of_leaves {least : Int} {items : List Item} {outer rest left : List Int} {r : Report}
    (leaves : BodyLeaves least outer items left r.cursors?) (counting : (∀ n ∈ rest, 0 ≤ n) → 0 ≤ least) :
    Disciplined items outer rest r left := by
  cases halted : r.cursors? with
  | none =>
    rw [halted] at leaves
    obtain rfl : left = outer := leaves
    exact ⟨List.take_length, fun _ => rfl, by simp [halted], by simp [halted], by simp [halted]⟩
  | some cursors =>
    rw [halted] at leaves
    obtain ⟨rfl, present, checked, above⟩ := leaves
    have deeper : (outer ++ cursors).drop outer.length = cursors := List.drop_left
    have valid : Schema.checkPosition items cursors = .ok () := by
      obtain ⟨cursor, deeper, rfl⟩ := List.exists_cons_of_ne_nil present
      exact checked
    refine ⟨List.take_left, by simp [halted], ?_, by rw [deeper]; exact fun _ => valid, ?_⟩
    · intro place same
      have long := List.length_pos_iff.mpr present
      rw [halted] at same
      cases same
      exact ⟨by rw [List.length_append]; omega, deeper⟩
    · intro _ positive
      have least := counting positive
      obtain ⟨position, rfl⟩ := Position.exists_of_nonneg (fun n member => Int.le_trans least (above n member))
      exact ⟨position, deeper, (Schema.checkPosition_iff items position).mp valid⟩

theorem exists_least (cursors : List Int) : ∃ least ≤ 0, (∀ n ∈ cursors, least ≤ n) ∧ ((∀ n ∈ cursors, 0 ≤ n) → 0 ≤ least) := by
  induction cursors with
  | nil => exact ⟨0, Int.le_refl 0, fun _ => nofun, fun _ => Int.le_refl 0⟩
  | cons cursor cursors ih =>
    obtain ⟨least, low, above, counting⟩ := ih
    refine ⟨min cursor least, by omega, ?_, ?_⟩
    · intro n member
      obtain rfl | member := List.mem_cons.mp member
      · omega
      · have := above n member
        omega
    · intro positive
      have first := positive cursor List.mem_cons_self
      have others := counting (fun n member => positive n (List.mem_cons_of_mem _ member))
      omega

/-- A call for a row, on a stack that ends where the row can be gone on with or at the row itself, does what the
traversal of the row does, keeps the cursors of the rows around it, and keeps its own exactly when it is halted. Every
row inside that is entered afresh finds a stack as long as its level. -/
theorem advance_disciplined (host : Host σ) (resumed : Bool) (fuel : Nat) (outer rest : List Int) (items : List Item)
    (looped : Bool) (supplied : Value) (w : σ) (checked : checkCursors items looped 0 rest = .ok ()) :
    ∃ left entries, (∀ e ∈ entries, e.Lawful) ∧
      ((∃ r w', Stacked.advance host resumed fuel outer.length items supplied ⟨w, outer ++ rest, []⟩ =
            .ok r.bare ⟨w', left, entries⟩ ∧
          runRow host (levelAt resumed outer.length) outer rest supplied items.length
            (fun cursor skip deeper p => runItems host fuel outer cursor skip deeper p items) w = .ok r w' ∧
          Disciplined items outer rest r left) ∨
        ∃ fault w', Stacked.advance host resumed fuel outer.length items supplied ⟨w, outer ++ rest, []⟩ =
            .error fault ⟨w', left, entries⟩ ∧
          runRow host (levelAt resumed outer.length) outer rest supplied items.length
            (fun cursor skip deeper p => runItems host fuel outer cursor skip deeper p items) w = .error fault w') := by
  obtain ⟨least, low, above, counting⟩ := exists_least rest
  obtain ⟨left, entries, lawful, ⟨_, r, w', ran, plain, rfl, leaves⟩ | failed⟩ :=
    advance_mirrors host resumed low fuel outer items supplied ⟨checked, above⟩ w [] (fun _ => nofun)
  · exact ⟨left, entries, lawful, .inl ⟨r, w', ran, plain, .of_leaves leaves counting⟩⟩
  · exact ⟨left, entries, lawful, .inr failed⟩

/-- A host whose conditions hold and whose steps do nothing. -/
def obliging : Host Unit where
  check _ _ _ := return .ok true
  invoke _ _ _ _ := return .done
  emit _ _ := return ()

/-- A group that is gone on with, and another behind it that is entered afresh. -/
theorem groups_disciplined :
    let group := Item.block [Item.step "a" .nothing none] none
    checkCursors [group, group] false 0 [0, 0] = .ok () ∧
      ∃ r entries, Stacked.advance obliging true 0 0 [group, group] .nothing ⟨(), [0, 0], []⟩ = .ok r ⟨(), [], entries⟩ ∧
        entries = [⟨1, [0, 0], false⟩, ⟨1, [1], true⟩] ∧ ∀ e ∈ entries, e.Lawful := by
  intro group
  have checked : checkCursors [group, group] false 0 [0, 0] = .ok () := rfl
  have passed : passes (fun _ (w : Stacked Unit) => w.stack == [] && w.entries == [⟨1, [0, 0], false⟩, ⟨1, [1], true⟩])
      (Stacked.advance obliging true 0 0 [group, group] .nothing ⟨(), [0, 0], []⟩) = true := by decide +kernel
  obtain ⟨r, ⟨_, stack, entries⟩, run, same⟩ := exists_of_passes passed
  obtain ⟨empty, entered⟩ := Bool.and_eq_true_iff.mp same
  obtain rfl : stack = [] := eq_of_beq empty
  refine ⟨checked, r, entries, run, eq_of_beq entered, ?_⟩
  obtain ⟨left, entries, lawful, ⟨r, w', ran, -, -⟩ | ⟨fault, w', ran, -⟩⟩ :=
    advance_disciplined obliging true 0 [] [0, 0] [group, group] false .nothing () checked
  · have same := run.symm.trans ran
    injection same with _ same
    injection same with _ _ same
    rwa [same]
  · have same := run.symm.trans ran
    cases same

end Workflow.Engine
