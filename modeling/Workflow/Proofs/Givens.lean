import Workflow.Proofs.Rechecking
import Workflow.Proofs.Retelling

/-! What commands are given. The values that are made of the texts of an input and of a context are the same in worlds that
correspond, at other addresses. -/

namespace Workflow
open Script (Act Entries Heap Renaming Value)

variable {f : Renaming}

namespace Script

/-- A renaming of nothing. -/
def Renaming.none : Renaming where
  map := id
  domain _ := False
  injective _ _ first := first.elim

theorem Heap.Renamed.none {h h' : Heap} (idle : h.handling = []) (idle' : h'.handling = []) : h.Renamed .none h' :=
  ⟨fun _ there => there.elim, idle, idle'⟩

mutual

theorem ofJson_matches (j : Json) (f : Renaming) : Act.Matches f Renaming.Sends (ofJson j) (ofJson j) := by
  cases j with
  | null => exact .pure (nothing_sent f)
  | bool b => exact .pure (Value.isBare.sends (v := .bool b) rfl f)
  | int n => exact .pure (Value.isBare.sends (v := .int n) rfl f)
  | float x => exact .pure (Value.isBare.sends (v := .float x) rfl f)
  | str s => exact .pure (Value.isBare.sends (v := .str s) rfl f)
  | array js =>
    rw [ofJson]
    refine (ofJsonItems_matches js f).bind (fun g vs ws within same => ?_)
    obtain ⟨covers, rfl⟩ := same
    have made := Heap.Renamed.housing.allocate (f := g) (o := .list vs.toArray) covers.addresses
    rw [Object.rename, List.map_toArray] at made
    exact made
  | object ms =>
    rw [ofJson]
    refine (ofJsonMembers_matches ms f).bind (fun g row row' within same => ?_)
    obtain ⟨covered, rfl⟩ := same
    have covers : Entries.CoveredBy row.toArray g := fun entry member => covered entry (by simpa using member)
    have made := Act.Matches.newDict covers
    rw [Entries.rename, List.map_toArray] at made
    exact made

theorem ofJsonItems_matches (js : List Json) (f : Renaming) :
    Act.Matches f (fun g vs ws => g.CoversAll vs ∧ ws = vs.map (Value.rename g.map)) (ofJsonItems js) (ofJsonItems js) := by
  cases js with
  | nil => exact .pure ⟨fun v member => absurd member List.not_mem_nil, rfl⟩
  | cons j js =>
    rw [ofJsonItems]
    refine (ofJson_matches j f).bind (fun g v w within sends => ?_)
    refine (ofJsonItems_matches js g).bind (fun k vs ws more same => ?_)
    obtain ⟨covered, rfl⟩ := same
    obtain ⟨covers, rfl⟩ := sends.mono more
    exact .pure ⟨List.forall_mem_cons.mpr ⟨covers, covered⟩, rfl⟩

theorem ofJsonMembers_matches (ms : List (String × Json)) (f : Renaming) :
    Act.Matches f Row.Sent (ofJsonMembers ms) (ofJsonMembers ms) := by
  match ms with
  | [] => exact .pure .nil
  | (name, j) :: ms =>
    rw [ofJsonMembers]
    refine (ofJson_matches j f).bind (fun g v w within sends => ?_)
    refine (ofJsonMembers_matches ms g).bind (fun k row row' more same => ?_)
    exact .pure (.cons name (sends.mono more) same)

end

/-- No error is handled while a value is made. -/
theorem ofJson_idle {j : Json} {h h' : Heap} {v : Value} (made : ofJson j h = .ok v h') (idle : h.handling = []) :
    h'.handling = [] := by
  have matched := ofJson_matches j .none h h (.none idle idle)
  rw [made] at matched
  cases matched with
  | ok _ _ renamed => exact renamed.idle.1

end Script

namespace Command

theorem valueOf_matches (text : String) (f : Renaming) : Job.Matches f Renaming.Sends (valueOf text) (valueOf text) := by
  unfold valueOf
  cases Json.read text with
  | ok j => exact .act (Script.ofJson_matches j f)
  | error fault =>
    cases fault with
    | malformed => exact .pure (Value.isBare.sends (v := .str text) rfl f)
    | longNumber digits => exact .act (.fail _ _)

theorem inputOf_matches (text : Option String) (f : Renaming) : Job.Matches f Renaming.Sends (inputOf text) (inputOf text) := by
  cases text with
  | none => exact .pure (nothing_sent f)
  | some text => exact valueOf_matches text f

theorem assign_matches (assignments : List String) {f : Renaming} {found found' : Entries} (sent : Entries.Sent f found found') :
    Job.Matches f Entries.Sent (assign found assignments) (assign found' assignments) := by
  induction assignments generalizing f found found' with
  | nil => exact .pure sent
  | cons item rest ih =>
    rw [assign, assign]
    split
    · exact .fail (fun _ => by simp) (fun _ => by simp)
    · next name text _ =>
      refine (valueOf_matches text f).bind (fun g v w within sends => ih ?_)
      have key : g.Covers (.str name) := Value.isBare.covers (v := .str name) rfl g
      obtain ⟨covered, rfl⟩ := sent.mono within
      obtain ⟨covers, rfl⟩ := sends
      exact ⟨Entries.insert_covered covered key covers, Entries.insert_rename covered key⟩

theorem parse_matches (text : String) (refusal : Invalid) (f : Renaming) :
    Job.Matches f Renaming.Sends (Store.parse text refusal) (Store.parse text refusal) := by
  unfold Store.parse
  cases Json.read text with
  | ok j => exact .act (Script.ofJson_matches j f)
  | error fault =>
    cases fault with
    | malformed => exact .fail (fun _ => by simp) (fun _ => by simp)
    | longNumber digits => exact .act (.fail _ _)

theorem entries?_matches {v v' : Value} (sends : f.Sends v v') :
    Job.Matches f (fun g => Option.Rel (Entries.Sent g)) (Document.entries? v) (Document.entries? v') := by
  intro w w' renamed
  obtain ⟨covers, rfl⟩ := sends
  obtain ⟨same, covered⟩ := renamed.heap.entries? covers
  refine .ok (.refl f) ?_ renamed
  rw [same]
  cases found : v.entries? w.heap with
  | none => exact .none
  | some entries => exact .some ⟨covered entries found, rfl⟩

/-- The entries of an object that a text holds. -/
def entriesOf (text : String) : Job Entries := do
  let v ← Store.parse text .notData
  match ← Document.entries? v with
  | some entries => return entries
  | none => Job.refuse (.notContext (v.className (← get).heap))

theorem entriesOf_matches (text : String) (f : Renaming) : Job.Matches f Entries.Sent (entriesOf text) (entriesOf text) := by
  refine (parse_matches text .notData f).bind (fun g v v' within sends => ?_)
  refine (entries?_matches sends).bind (fun k found found' more same => ?_)
  cases same with
  | some sent => exact .pure sent
  | none => exact .bind .get (fun _ _ _ _ _ => Job.Matches.fail (fun _ => by simp) (fun _ => by simp))

/-- What a file of entries gives depends on what is read there. -/
theorem fileEntries_eq (file : String) (w : World) : fileEntries file w =
    if w.files.exists? (FilePath.ofText file) then
      match w.files.read (FilePath.ofText file) with
      | .ok text => entriesOf text w
      | .error category => .error (.system category) w
    else .error (.missing .context (FilePath.ofText file).text) w := by
  simp only [fileEntries, Bind.bind, EStateM.bind, Script.get_result, Store.read]
  cases present : w.files.exists? (FilePath.ofText file) with
  | false => rfl
  | true =>
    cases found : w.files.read (FilePath.ofText file) with
    | ok text =>
      simp only [Bool.not_true, Bool.false_eq_true, if_false, EStateM.bind, Script.get_result, found, if_true]
      rfl
    | error category =>
      simp only [Bool.not_true, Bool.false_eq_true, if_false, EStateM.bind, Script.get_result, found, if_true]
      rfl

theorem fileEntries_carried (file : String) {v w : World} (renamed : World.Renamed f v w) (same : w.files = v.files) :
    Carried World.Renamed Fault.Sent f Entries.Sent (fileEntries file v) (fileEntries file w) := by
  rw [fileEntries_eq, fileEntries_eq, same]
  split
  · split
    · exact entriesOf_matches _ f v w renamed
    · exact .error (.refl f) (.other (by simp) (by simp)) renamed
  · exact .error (.refl f) (.other (by simp) (by simp)) renamed

/-- Corresponding contexts are made of the same texts and of the same file. -/
theorem contextOf_carried (file : Option String) (assignments : List String) {v w : World} (renamed : World.Renamed f v w)
    (same : w.files = v.files) :
    Carried World.Renamed Fault.Sent f Renaming.Sends (contextOf file assignments v) (contextOf file assignments w) := by
  have rest (g : Renaming) (found found' : Entries) (sent : Entries.Sent g found found') :
      Job.Matches g Renaming.Sends (assign found assignments >>= fun entries => Job.act (Act.newDict entries))
        (assign found' assignments >>= fun entries => Job.act (Act.newDict entries)) :=
    (assign_matches assignments sent).bind (fun k entries entries' within sent => by
      obtain ⟨covered, rfl⟩ := sent
      exact Job.Matches.act (.newDict covered))
  have empty : Entries.Sent f #[] #[] := ⟨fun entry member => absurd member (by simp), by simp [Entries.rename]⟩
  cases file with
  | none => exact rest f _ _ empty v w renamed
  | some file =>
    unfold contextOf
    dsimp only
    cases blank : file.isEmpty with
    | true => exact rest f _ _ empty v w renamed
    | false => exact (fileEntries_carried file renamed same).bind (fun g found found' v' w' within sent worlds _ =>
        rest g found found' sent v' w' worlds)

end Command

end Workflow
