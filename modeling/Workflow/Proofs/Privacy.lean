import Mathlib.Data.List.TakeWhile
import Workflow.Proofs.Evaluations

/-! The interpreter goes to no private attribute by name, but in the fields of templates. -/

namespace Workflow.Script

/-- A way to reach attributes that does as it likes with private names, but leaves all other names and the fields of templates
as they are. -/
structure Access.Spares (access : Access) : Prop where
  read : ∀ v name, ¬Private name → access.read v name = Act.getAttribute v name
  assign : ∀ v name new, ¬Private name → access.assign v name new = Act.setAttribute v name new
  delete : ∀ v name, ¬Private name → access.delete v name = Act.deleteAttribute v name
  field : ∀ v name, access.field v name = Act.getAttribute v name

theorem Access.Spares.alike {access : Access} (spares : access.Spares) : access.Alike .standard where
  read v name clean := by
    rw [spares.read v name clean]
    exact Act.getAttribute_steady
  assign v name new clean := by
    rw [spares.assign v name new clean]
    exact Act.setAttribute_steady
  delete v name clean := by
    rw [spares.delete v name clean]
    exact Act.deleteAttribute_steady
  field v name := by
    rw [spares.field v name]
    exact Act.getAttribute_steady

/-- An accepted source comes to the same, whatever is done to private attributes by name: no attribute expression and no target
goes to one. Only the fields of templates may. -/
theorem private_attributes_untouched {source : String} {p : Program} (accepted : compile source = .ok p) {access : Access}
    (spares : access.Spares) {builtins : List (String × Value)} {bindings : Entries} {h : Heap} (code : h.Public) :
    evaluateOn access builtins p bindings h = evaluate builtins p bindings h ∧
      (leftBy (evaluate builtins p bindings h)).Public := by
  have alike := machine_alike spares.alike evaluationFuel callLimit
  have agree : Agree (evaluateOn access builtins p bindings) (evaluate builtins p bindings) :=
    (Act.alloc_steady (by grind)).bind (fun scope => runProgram_agrees alike (compile_public accepted))
  obtain ⟨same, left⟩ := agree h code
  exact ⟨same, same ▸ left⟩

instance : DecidablePred Private := fun _ => decidable_of_iff _ List.head?_eq_some_iff

/-- Going to a private attribute by name ends the run at once. -/
def Access.sealed : Access where
  read v name := if Private name then throw .exhausted else Act.getAttribute v name
  assign v name new := if Private name then throw .exhausted else Act.setAttribute v name new
  delete v name := if Private name then throw .exhausted else Act.deleteAttribute v name
  field := Act.getAttribute

theorem Access.sealed_spares : Access.sealed.Spares where
  read _ _ clean := if_neg clean
  assign _ _ _ clean := if_neg clean
  delete _ _ clean := if_neg clean
  field _ _ := rfl

/-- An object with a private attribute. -/
def withSecret : Heap := { objects := #[.record .namespace #[("x", .int 1), ("_x", .int 2)]] }

theorem withSecret_public : withSecret.Public := by
  intro a
  cases a with grind [withSecret, Heap.object]

/-- An attribute is set to another one, with private attributes sealed. -/
theorem attribute_set_sealed : ∃ p, compile "o.y = o.x" = .ok p ∧ Access.sealed.Spares ∧ withSecret.Public ∧
    evaluateOn .sealed standardBuiltins p #[(.str "o", .ref 0)] withSecret =
      evaluate standardBuiltins p #[(.str "o", .ref 0)] withSecret ∧
    (leftBy (evaluate standardBuiltins p #[(.str "o", .ref 0)] withSecret)).Public := by
  have accepts : (compile "o.y = o.x").toOption.isSome = true := by decide +kernel
  cases accepted : compile "o.y = o.x" with
  | error fault =>
    rw [accepted] at accepts
    cases accepts
  | ok p =>
    exact ⟨p, rfl, Access.sealed_spares, withSecret_public,
      private_attributes_untouched accepted Access.sealed_spares withSecret_public⟩

namespace Template

/-- A character that ends no part of a field's name. -/
def Inner (c : Char) : Prop := c ≠ '.' ∧ c ≠ '[' ∧ c ≠ '\x7b' ∧ c ≠ '\x7d' ∧ c ≠ ':' ∧ c ≠ '!'

theorem takeName_inner {name : List Char} (inner : ∀ c ∈ name, Inner c) :
    takeName false (name ++ ['\x7d']) = .ok (name, ['\x7d']) := by
  induction name with
  | nil => rfl
  | cons c rest ih =>
    obtain ⟨⟨-, bracket, opens, closes, colon, bang⟩, others⟩ := List.forall_mem_cons.mp inner
    have stays : (c == '[') = false := beq_false_of_ne bracket
    simp only [List.cons_append, takeName, stays, ih others]
    simp [opens, closes, colon, bang]

theorem takeField_inner {name : List Char} (inner : ∀ c ∈ name, Inner c) :
    takeField ('0' :: '.' :: (name ++ ['\x7d'])) = .ok (⟨'0' :: '.' :: name, none, [], false⟩, []) := by
  have taken : takeName false ('0' :: '.' :: (name ++ ['\x7d'])) = .ok ('0' :: '.' :: name, ['\x7d']) := by
    simp [takeName, takeName_inner inner]
  rw [takeField, taken]
  rfl

theorem takeStep_inner {name : List Char} (inner : ∀ c ∈ name, Inner c) (some : name ≠ []) :
    takeStep ('.' :: name) = .ok (.some (.attribute (String.ofList name), [])) := by
  have whole : name.takeWhile (fun c => c != '.' && c != '[') = name := by
    refine List.takeWhile_eq_self_iff.mpr (fun c inside => ?_)
    obtain ⟨dot, bracket, -⟩ := inner c inside
    simp [dot, bracket]
  simp [takeStep, whole, some]

theorem walk_inner {read : Value → String → Act Value} {name : List Char} (inner : ∀ c ∈ name, Inner c) (some : name ≠ [])
    (fuel : Nat) (v : Value) : walk read (fuel + 2) v ('.' :: name) = read v (String.ofList name) := by
  have ended (w : Value) : walk read (fuel + 1) w [] = pure w := rfl
  rw [walk, takeStep_inner inner some]
  simp only [ofFault, pure_bind, ended, bind_pure]

end Template

/-- A field shows the attribute of the first argument that it names, be it private or not. -/
theorem formatTemplate_attribute {read : Value → String → Act Value} {name : List Char}
    (inner : ∀ c ∈ name, Template.Inner c) (some : name ≠ []) (v : Value) (more : List Value)
    (named : List (String × Value)) :
    formatTemplate read (String.ofList ('\x7b' :: '0' :: '.' :: (name ++ ['\x7d']))) (v :: more) named =
      (do layoutValue (← read v (String.ofList name)) "") := by
  have text (cs : List Char) : Template.takeText ('\x7b' :: '0' :: cs) = .ok ([], '\x7b' :: '0' :: cs) := rfl
  have first : ('0' :: '.' :: name).takeWhile (fun c => c != '.' && c != '[') = ['0'] := rfl
  have argument : Template.argument ⟨v :: more, named⟩ .open ['0'] = pure (v, .manual) := rfl
  have kept (w : Value) : Template.convert w none = pure w := rfl
  have ended (inner : Template.Numbering → List Char → Act (String × Template.Numbering)) (fuel : Nat)
      (numbering : Template.Numbering) :
      Template.fillWith read inner ⟨v :: more, named⟩ (fuel + 1) numbering [] = pure ("", numbering) := rfl
  rw [formatTemplate, Template.fill, String.toList_ofList, Template.fillWith, text]
  simp only [Template.ofFault, pure_bind, Template.takeField_inner inner, first, argument, kept, List.length_cons, ended]
  simp [Template.walk_inner inner some]

/-- Private attributes are sealed for the fields of templates too. -/
def Access.sealedThroughout : Access := { Access.sealed with field := Access.sealed.read }

/-- Whether an act comes to some text. -/
def givesText (s : String) : EStateM.Result Stop Heap Value → Bool
  | .ok (.str t) _ => s == t
  | _ => false

/-- A source that compiles shows a private attribute in a field, and does not with such attributes sealed for fields too. -/
theorem private_attribute_shown : ∃ p, compile "'{0._x}'.format(o)" = .ok p ∧
    givesText "2" (evaluate standardBuiltins p #[(.str "o", .ref 0)] withSecret) = true ∧
    givesText "2" (evaluateOn .sealedThroughout standardBuiltins p #[(.str "o", .ref 0)] withSecret) = false := by
  have shows : (compile "'{0._x}'.format(o)").toOption.any (fun p =>
      givesText "2" (evaluate standardBuiltins p #[(.str "o", .ref 0)] withSecret) &&
        !givesText "2" (evaluateOn .sealedThroughout standardBuiltins p #[(.str "o", .ref 0)] withSecret)) = true := by
    decide +kernel
  cases accepted : compile "'{0._x}'.format(o)" with
  | error fault =>
    rw [accepted] at shows
    cases shows
  | ok p =>
    rw [accepted] at shows
    obtain ⟨shown, hidden⟩ := Bool.and_eq_true_iff.mp shows
    exact ⟨p, rfl, shown, by simpa using hidden⟩

end Workflow.Script
