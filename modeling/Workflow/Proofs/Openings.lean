import Workflow.Proofs.Endings

/-! What is done first when a program is gone on with. At a position where something stands, that comes first:
no gate and no test around it is checked again, only the gate of a step before the step. If it fails as
before, the position is the same as before. -/

namespace Workflow
open Engine (Position)

/-- The item at a position inside an item. -/
def Item.at? (i : Item) : Position → Option Item
  | [] => some i
  | next :: deeper =>
    match i.row? with
    | none => none
    | some (items, _) =>
      match items[next]? with
      | none => none
      | some j => j.at? deeper

/-- The gate of the item at a position inside an item. -/
def Item.gateAt? (i : Item) (position : Position) : Option Condition := (i.at? position).bind Item.gate?

def Schema.gateAt? (schema : Schema) : Position → Option Condition
  | [] => none
  | next :: deeper => (schema[next]?).bind (·.gateAt? deeper)

@[simp] theorem Item.gateAt?_nil (i : Item) : i.gateAt? [] = i.gate? := rfl

theorem Item.gateAt?_cons {i : Item} {items : List Item} {looped : Bool} (row : i.row? = some (items, looped))
    (next : Nat) (deeper : Position) : i.gateAt? (next :: deeper) = Schema.gateAt? items (next :: deeper) := by
  simp only [Item.gateAt?, Item.at?, row, Schema.gateAt?]
  cases items[next]? <;> rfl

end Workflow

namespace Workflow.Engine
open Script (Value)

section
variable {σ : Type}

/-- A host that can tell of everything but the interruption of a whole call. -/
def Host.Tells (host : Host σ) : Prop :=
  ∀ event v w, (∀ level, event = .interrupted level → level = .nested) → ∃ w', host.emit event v w = .ok () w'

theorem Host.Tells.told {host : Host σ} (tells : host.Tells) {event v w fault w'}
    (inner : ∀ level, event = .interrupted level → level = .nested) :
    ¬ host.scene.told event v w (.error fault) w' := by
  intro untold
  have untold : host.emit event v w = .error fault w' := untold
  obtain ⟨w₁, told⟩ := tells event v w inner
  cases untold.symm.trans told

/-- A condition was checked and holds. -/
def Deed.Passes : Deed σ → Prop
  | .checked _ _ _ _ (.ok (.ok true)) _ => True
  | _ => False

/-- The part of a program comes back to a position, unless it cannot tell of it. -/
def Finish.Returns (halt : Halt) (position : Position) (f : Finish) : Prop :=
  (∃ stepId, f = .halted halt position stepId) ∨ ∃ fault, f = .failed fault

/-- If a deed breaks, nothing follows. -/
def Stops (position : Position) (d : Deed σ) (rest : List (Deed σ)) (f : Finish) : Prop :=
  ∀ halt, d.Breaks halt → rest = [] ∧ f.Returns halt position

/-- Some deeds begin, at a place in the schema, with what stands there. A step with a gate is invoked if the
gate holds. -/
def Opening (gate : Option Condition) (q : Query) (place position : Position) (ds : List (Deed σ))
    (f : Finish) : Prop :=
  ∃ d rest, ds = d :: rest ∧ d.At place.cursors ∧ Stops position d rest f ∧
    match q, gate with
    | .invoke _ _, some c => d.query = .check .gate c ∧
        (d.Passes → ∃ d' rest', rest = d' :: rest' ∧ d'.At place.cursors ∧ d'.query = q ∧
          Stops position d' rest' f)
    | _, _ => d.query = q

theorem Stops.of_unbroken {position : Position} {d : Deed σ} {rest : List (Deed σ)} {f : Finish}
    (unbroken : ∀ halt, ¬ d.Breaks halt) : Stops position d rest f :=
  fun halt breaks => absurd breaks (unbroken halt)

theorem Stops.behind {position deeper : Position} {d : Deed σ} {rest es : List (Deed σ)} {f g : Finish}
    (stops : Stops deeper d rest f)
    (back : ∀ halt, f.Returns halt deeper → es = [] ∧ g.Returns halt position) :
    Stops position d (rest ++ es) g := by
  intro halt breaks
  obtain ⟨rfl, returns⟩ := stops halt breaks
  obtain ⟨rfl, returns⟩ := back halt returns
  exact ⟨rfl, returns⟩

/-- What begins a part of a program begins the whole, if the whole comes back where the part does. -/
theorem Opening.behind {gate q} {place position deeper : Position} {ds es : List (Deed σ)} {f g : Finish}
    (opening : Opening gate q place deeper ds f)
    (back : ∀ halt, f.Returns halt deeper → es = [] ∧ g.Returns halt position) :
    Opening gate q place position (ds ++ es) g := by
  obtain ⟨d, rest, rfl, placed, stops, first⟩ := opening
  refine ⟨d, rest ++ es, rfl, placed, stops.behind back, ?_⟩
  cases q with
  | check => exact first
  | invoke =>
    cases gate with
    | none => exact first
    | some c =>
      refine ⟨first.1, fun passes => ?_⟩
      obtain ⟨d', rest', rfl, placed', same, stops'⟩ := first.2 passes
      exact ⟨d', rest' ++ es, rfl, placed', same, stops'.behind back⟩

theorem Opening.map {gate q} {place position : Position} {ds : List (Deed σ)} {f g : Finish}
    (opening : Opening gate q place position ds f)
    (back : ∀ halt, f.Returns halt position → g.Returns halt position) :
    Opening gate q place position ds g := by
  have whole : Opening gate q place position (ds ++ []) g :=
    opening.behind (fun halt returns => ⟨rfl, back halt returns⟩)
  rwa [List.append_nil] at whole

theorem Finish.Returns.ofBlock {halt : Halt} {position : Position} {f : Finish} (p : Progress)
    (returns : f.Returns halt position) : (f.ofBlock p).Returns halt position := by
  obtain ⟨stepId, rfl⟩ | ⟨fault, rfl⟩ := returns
  · exact .inl ⟨stepId, rfl⟩
  · exact .inr ⟨fault, rfl⟩

variable {host : Host σ}

theorem row_returns {s : Scene σ} {here cursor items f w as es g w'} {halt : Halt} {deeper : Position}
    (rest : Runs s here (.rest cursor items f) w as es g w') (returns : f.Returns halt deeper) :
    es = [] ∧ g.Returns halt (cursor :: deeper) := by
  obtain ⟨stepId, rfl⟩ | ⟨fault, rfl⟩ := returns
  · cases rest
    exact ⟨rfl, .inl ⟨stepId, rfl⟩⟩
  · cases rest
    exact ⟨rfl, .inr ⟨fault, rfl⟩⟩

theorem rounds_returns {s : Scene σ} {here test items p f w as es g w'} {halt : Halt} {position : Position}
    (rounds : Runs s here (.rounds test items p f) w as es g w') (returns : f.Returns halt position) :
    es = [] ∧ g.Returns halt position := by
  obtain ⟨stepId, rfl⟩ | ⟨fault, rfl⟩ := returns
  · cases rounds with
    | again again => cases again
    | ended ended => exact ⟨rfl, .inl ⟨stepId, rfl⟩⟩
  · cases rounds with
    | again again => cases again
    | ended ended => exact ⟨rfl, .inr ⟨fault, rfl⟩⟩

theorem Closes.returns {s : Scene σ} {level here f w g w'} {halt : Halt} {position : Position}
    (closes : Closes s level here f w g w') (returns : f.Returns halt position) : g.Returns halt position := by
  cases closes with
  | told => exact returns
  | untold => exact .inr ⟨_, rfl⟩
  | failed => exact .inr ⟨_, rfl⟩

theorem Checks.deed {here stepId role c w ds answer w'} (tells : host.Tells)
    (checks : Checks host.scene here stepId role c w ds answer w') :
    ∃ after, ds = [.checked role c here.cursors w answer after] := by
  cases checks with
  | told => exact ⟨_, rfl⟩
  | untold asked untold => exact absurd untold (tells.told nofun)
  | halted => exact ⟨_, rfl⟩
  | failed => exact ⟨_, rfl⟩

theorem Invokes.opening {here id literal supplied w ds f w'}
    (invokes : Invokes host.scene here id literal supplied w [] ds f w') :
    ∃ d, ds = [d] ∧ d.At here.cursors ∧ d.query = .invoke id literal ∧ Stops [] d [] f := by
  cases invokes with
  | @told _ _ outcome _ _ asked told =>
    refine ⟨_, rfl, rfl, rfl, ?_⟩
    intro halt breaks
    cases outcome with
    | done => cases breaks
    | awaits => cases breaks
    | failed halt' =>
      cases breaks
      exact ⟨rfl, .inl ⟨id, rfl⟩⟩
  | untold => exact ⟨_, rfl, rfl, rfl, fun _ _ => ⟨rfl, .inr ⟨_, rfl⟩⟩⟩
  | failed => exact ⟨_, rfl, rfl, rfl, .of_unbroken (fun _ breaks => breaks)⟩

/-- An item begins with its gate, and one without a gate with what it is. -/
theorem Runs.opening {here i p w ds f w' q} (tells : host.Tells)
    (runs : Runs host.scene here (.item i p) w [] ds f w') (holds : i.Holds [] q) :
    Opening i.gate? q here [] ds f := by
  cases runs with
  | @closed _ _ _ _ _ _ answer _ _ gated gate closed =>
    obtain ⟨after, rfl⟩ := gate.deed tells
    refine ⟨_, [], rfl, rfl, ?_, ?_⟩
    · rcases answer with fault | halt | passed
      · exact .of_unbroken (fun _ => id)
      · rintro _ ⟨⟩
        cases closed
        exact ⟨rfl, .inl ⟨_, rfl⟩⟩
      · exact .of_unbroken (fun _ => id)
    · cases holds with
      | gate gated' =>
        cases gated.symm.trans gated'
        rfl
      | step =>
        rw [gated]
        refine ⟨rfl, fun passes => ?_⟩
        rcases answer with fault | halt | ⟨_ | _⟩
        · cases passes
        · cases passes
        · cases passes
        · cases closed
      | marker => cases gated
  | opened gated gate inside =>
    obtain ⟨after, rfl⟩ := gate.deed tells
    refine ⟨_, _, rfl, rfl, .of_unbroken (fun _ => id), ?_⟩
    cases holds with
    | gate gated' =>
      cases gated.symm.trans gated'
      rfl
    | step =>
      rw [gated]
      refine ⟨rfl, fun _ => ?_⟩
      cases inside with
      | step step =>
        obtain ⟨d, rfl, placed, same, stops⟩ := step.opening
        exact ⟨d, [], rfl, placed, same, stops⟩
    | marker => cases gated
  | free free inside =>
    cases holds with
    | gate gated => cases free.symm.trans gated
    | step =>
      cases inside with
      | step step =>
        obtain ⟨d, rfl, placed, same, stops⟩ := step.opening
        refine ⟨d, [], rfl, placed, stops, ?_⟩
        rw [free]
        exact same
    | marker =>
      cases inside with
      | @marker _ _ _ _ _ _ answer _ marker =>
        obtain ⟨after, rfl⟩ := marker.deed tells
        refine ⟨_, [], rfl, rfl, ?_, rfl⟩
        rcases answer with fault | halt | passed
        · exact .of_unbroken (fun _ => id)
        · rintro _ ⟨⟩
          exact ⟨rfl, .inl ⟨_, rfl⟩⟩
        · exact .of_unbroken (fun _ => id)

/-- A loop begins with its test, and comes back behind the end of its body. -/
theorem Runs.loop_opening {here test items p w ds f w'} (tells : host.Tells)
    (runs : Runs host.scene here (.loop test items p) w [] ds f w') :
    ∃ d rest, ds = d :: rest ∧ d.At (Position.cursors (here ++ [items.length])) ∧
      d.query = .check .test test ∧ Stops [items.length] d rest f := by
  generalize alone : ([] : List Value) = as at runs
  cases runs with
  | @tested _ _ _ _ _ _ answer _ _ tested ended =>
    obtain ⟨after, rfl⟩ := tested.deed tells
    refine ⟨_, [], rfl, by simp [Deed.At], rfl, ?_⟩
    rcases answer with fault | halt | passed
    · exact .of_unbroken (fun _ => id)
    · rintro _ ⟨⟩
      cases ended
      exact ⟨rfl, .inl ⟨_, rfl⟩⟩
    · exact .of_unbroken (fun _ => id)
  | iteration tested body rounds =>
    obtain ⟨after, rfl⟩ := tested.deed tells
    exact ⟨_, _, rfl, by simp [Deed.At], rfl, .of_unbroken (fun _ => id)⟩

theorem Resumes.past {s : Scene σ} {here cursor items p w as ds f w'}
    (resumes : Resumes s here (.row cursor items p) [cursor + items.length] w as ds f w') :
    ds = [] ∧ f = .onward p := by
  induction items generalizing cursor with
  | nil =>
    cases resumes with
    | row row =>
      cases row
      exact ⟨rfl, rfl⟩
  | cons i items ih =>
    generalize place : cursor + (i :: items).length = past at resumes
    rw [List.length_cons] at place
    cases resumes with
    | row row => omega
    | later later row =>
      obtain rfl : cursor + 1 + items.length = past := by omega
      exact ih row

/-- The gate of the item at a position in a part of a program. -/
def Task.gateAt? : Task → Position → Option Condition
  | .row cursor items _, next :: deeper => Schema.gateAt? items ((next - cursor) :: deeper)
  | .rest cursor items _, next :: deeper => Schema.gateAt? items ((next - (cursor + 1)) :: deeper)
  | .item i _, position => i.gateAt? position
  | .inside i _, next :: deeper => i.gateAt? (next :: deeper)
  | .body _ items _, position => Schema.gateAt? items position
  | .loop _ items _, position => Schema.gateAt? items position
  | .rounds _ items _ _, position => Schema.gateAt? items position
  | _, [] => none

/-- What is left of a program at a position begins with what stands there. -/
theorem Resumes.opening {here t position w as ds f w' q} (tells : host.Tells)
    (resumes : Resumes host.scene here t position w as ds f w') (alone : as = []) (holds : t.Holds q position) :
    Opening (t.gateAt? position) q (here ++ position) position ds f := by
  induction resumes with
  | @row here cursor items p w as ds f w' row =>
    obtain ⟨next, deeper, place, i, found, stands⟩ := holds
    obtain ⟨rfl, rfl⟩ : next = 0 ∧ [] = deeper := by
      simp only [List.cons.injEq] at place
      exact ⟨by omega, place.2⟩
    cases row with
    | row_end => cases found
    | row first rest =>
      cases found
      obtain ⟨rfl, rfl⟩ := List.append_eq_nil_iff.mp alone
      have opening := (first.opening tells stands).behind (fun _ => row_returns rest)
      simpa [Task.gateAt?, Schema.gateAt?] using opening
  | @later here cursor i items p next deeper w as ds f w' later row ih =>
    obtain ⟨skip, inner, place, j, found, stands⟩ := holds
    obtain ⟨same, rfl⟩ := List.cons.inj place
    obtain ⟨skip, rfl⟩ := Nat.exists_eq_add_of_le' (show 1 ≤ skip by omega)
    have further : next - cursor = skip + 1 := by omega
    have nearer : next - (cursor + 1) = skip := by omega
    have opening := ih alone ⟨skip, deeper, by rw [same]; congr 1; omega, j, found, stands⟩
    simpa only [Task.gateAt?, Schema.gateAt?, further, nearer, List.getElem?_cons_succ] using opening
  | @item here cursor i items p next deeper w as ds f w₁ bs es g w₂ item rest ih =>
    obtain ⟨skip, inner, place, j, found, stands⟩ := holds
    obtain ⟨same, rfl⟩ := List.cons.inj place
    obtain rfl : skip = 0 := by omega
    cases found
    have opening := (ih (List.append_eq_nil_iff.mp alone).1 stands).behind (fun _ => row_returns rest)
    simpa [Task.gateAt?, Schema.gateAt?] using opening
  | @block here items gate p next deeper w as ds f w' body ih =>
    cases holds with
    | inside row found stands =>
      cases row
      have opening := (ih alone ⟨_, found, stands⟩).map (fun _ returns => returns.ofBlock p)
      rwa [Task.gateAt?, Item.gateAt?_cons rfl]
  | @loop here test items gate p next deeper w as ds f w₁ bs es g w₂ body rounds ih =>
    obtain ⟨rfl, rfl⟩ := List.append_eq_nil_iff.mp alone
    cases holds with
    | inside row found stands =>
      cases row
      have opening := (ih rfl ⟨_, found, stands⟩).behind (fun _ => rounds_returns rounds)
      rwa [Task.gateAt?, Item.gateAt?_cons rfl]
    | test =>
      -- Nothing is left of the iteration, so the test comes first.
      cases body with
      | body_untold untold => exact absurd untold (tells.told nofun)
      | body told row closes =>
        rw [← Nat.zero_add items.length] at row
        obtain ⟨rfl, rfl⟩ := row.past
        cases closes with
        | untold closing untold =>
          cases closing
          exact absurd untold (tells.told nofun)
        | told closing told =>
          cases rounds with
          | ended ended => cases ended
          | again again loop =>
            obtain ⟨d, rest, rfl, placed, same, stops⟩ := loop.loop_opening tells
            exact ⟨d, rest, rfl, placed, stops, same⟩
  | @body here level items supplied next deeper w w₁ as ds f w₂ g w₃ told row closes ih =>
    obtain ⟨i, found, stands⟩ := holds
    have opening := ih alone ⟨next, deeper, by rw [Nat.zero_add], i, found, stands⟩
    exact opening.map (fun _ => closes.returns)
  | body_untold untold => exact absurd untold (tells.told nofun)

end

end Workflow.Engine
