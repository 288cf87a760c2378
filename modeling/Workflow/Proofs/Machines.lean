import Workflow.Proofs.Steadiness

/-! Machines that differ at most in what comes of private attributes. What they take part in without any code at hand comes to
the same on each of them. -/

namespace Workflow.Script

/-- Two ways to reach attributes that are the same for names that are not private, and for the fields of templates. -/
structure Access.Alike (access other : Access) : Prop where
  read : ∀ v name, ¬Private name → Agree (access.read v name) (other.read v name)
  assign : ∀ v name new, ¬Private name → Agree (access.assign v name new) (other.assign v name new)
  delete : ∀ v name, ¬Private name → Agree (access.delete v name) (other.delete v name)
  field : ∀ v name, Agree (access.field v name) (other.field v name)

structure Machine.Alike (m other : Machine) : Prop where
  fuel : m.fuel = other.fuel
  calls : m.calls = other.calls
  access : m.access.Alike other.access
  eval : ∀ scope e, Node.Public (.expr e) → Agree (m.eval scope e) (other.eval scope e)
  exec : ∀ scope stmts, (∀ s ∈ stmts, Node.Public (.stmt s)) → Agree (m.exec scope stmts) (other.exec scope stmts)
  call : ∀ f args named, Agree (m.call f args named) (other.call f args named)
  next : ∀ a, Agree (m.next a) (other.next a)

attribute [grind ←] Access.Alike.field Machine.Alike.access Machine.Alike.call Machine.Alike.next
attribute [grind →] Machine.Alike.fuel Machine.Alike.calls

section
variable {m other : Machine} {v w : Value} {a : Addr} {args : Arguments} {fuel : Nat}

/-! Walking. -/

@[grind ←] theorem drainFrom_agrees (alike : m.Alike other) {items : Array Value} :
    Agree (drainFrom m a fuel items) (drainFrom other a fuel items) := by
  induction fuel generalizing items with grind -funext [drainFrom]

@[grind ←] theorem drain_agrees (alike : m.Alike other) : Agree (drain m a) (drain other a) := by grind -funext [drain]

@[grind ←] theorem itemsOf_agrees (alike : m.Alike other) : Agree (itemsOf m v) (itemsOf other v) := by grind -funext [itemsOf]

@[grind ←] theorem takeItems_agrees (alike : m.Alike other) {count : Nat} :
    Agree (takeItems m a count) (takeItems other a count) := by
  induction count with grind -funext [takeItems]

@[grind ←] theorem nextOfAll_agrees (alike : m.Alike other) {inners : List Addr} :
    Agree (nextOfAll m inners) (nextOfAll other inners) := by
  induction inners with grind -funext [nextOfAll]

@[grind ←] theorem Iterator.step_agrees (alike : m.Alike other) {it : Iterator} : Agree (it.step m) (it.step other) := by
  unfold Iterator.step
  split <;> grind -funext

/-- An iterator that is no comprehension does not become one. -/
theorem Iterator.step_gives {it : Iterator} :
    Gives (fun found => ∀ w left, found = some (w, left) → (Object.iterator left).Public) (it.step m) := by
  unfold Iterator.step
  split <;> grind

/-! Operators. -/

namespace Act

@[grind ←] theorem pairs_agrees (alike : m.Alike other) {items : List Value} {i : Nat} :
    Agree (pairs m items i) (pairs other items i) := by
  induction items generalizing i with
  | nil => exact .pure _
  | cons v rest ih =>
    rw [pairs, pairs]
    refine iterate?_steady.bind (fun found => ?_)
    cases found with
    | none => exact typeError_steady
    | some a =>
      refine (drain_agrees alike).bind (fun parts => ?_)
      split <;> grind -funext

@[grind ←] theorem entriesOf_agrees (alike : m.Alike other) : Agree (entriesOf m v) (entriesOf other v) := by
  cases v with grind -funext [entriesOf]

@[grind ←] theorem augment_agrees (alike : m.Alike other) {op : BinaryOp} : Agree (augment m op v w) (augment other op v w) := by
  cases v with
  | ref a =>
    simp only [augment]
    refine .object a (fun o _ => ?_)
    split
    case h_6 =>
      cases w with
      | ref b => exact .object b (fun o _ => by grind)
      | _ => exact binaryAs_steady
    all_goals grind -funext
  | _ => grind -funext [augment]

@[grind ←] theorem turnsUp_agrees (alike : m.Alike other) : Agree (turnsUp m v a fuel) (turnsUp other v a fuel) := by
  induction fuel with grind -funext [turnsUp]

@[grind ←] theorem member_agrees (alike : m.Alike other) : Agree (member m v w) (member other v w) := by
  unfold member
  split <;> grind -funext

@[grind ←] theorem compare_agrees (alike : m.Alike other) {c : Comparison} : Agree (compare m c v w) (compare other c v w) := by
  cases c with grind -funext [compare]

@[grind ←] theorem setSubscript_agrees {index new : Value} {items items' : Bool → Act (Array Value)}
    (rest : ∀ stepped, Agree (items stepped) (items' stepped)) :
    Agree (setSubscript v index new items) (setSubscript v index new items') := by
  unfold setSubscript
  split
  · refine .object _ (fun o _ => ?_)
    split <;> grind -funext
  · grind -funext

end Act

@[grind ←] theorem sliceItems_agrees (alike : m.Alike other) {stepped : Bool} :
    Agree (sliceItems m v stepped) (sliceItems other v stepped) := by
  grind -funext [sliceItems]

/-! Sorting. -/

@[grind ←] theorem keyed_agrees (alike : m.Alike other) {values : List Value} : Agree (keyed m v values) (keyed other v values) := by
  induction values with
  | nil => exact .pure _
  | cons w rest ih => cases v with grind -funext [keyed]

@[grind ←] theorem sortValues_agrees (alike : m.Alike other) {reverse : Bool} {values : List Value} :
    Agree (sortValues m v reverse values) (sortValues other v reverse values) := by
  grind -funext [sortValues]

/-! Templates. -/

namespace Template
variable {read read' : Value → String → Act Value} {inner inner' : Numbering → List Char → Act (String × Numbering)}
  {args : Args} {numbering : Numbering} {cs : List Char}

@[grind ←] theorem walk_agrees (reads : ∀ v name, Agree (read v name) (read' v name)) :
    Agree (walk read fuel v cs) (walk read' fuel v cs) := by
  induction fuel generalizing v cs with grind -funext [walk]

@[grind ←] theorem fillWith_agrees (reads : ∀ v name, Agree (read v name) (read' v name))
    (fills : ∀ numbering cs, Agree (inner numbering cs) (inner' numbering cs)) :
    Agree (fillWith read inner args fuel numbering cs) (fillWith read' inner' args fuel numbering cs) := by
  induction fuel generalizing numbering cs with
  | zero => exact .pure _
  | succ fuel ih =>
    rw [fillWith, fillWith]
    refine ofFault_steady.bind (fun found => ?_)
    obtain ⟨text, rest⟩ := found
    cases rest with
    | nil => exact .pure _
    | cons _ rest =>
      refine ofFault_steady.bind (fun found => argument_steady.bind (fun numbered => ?_))
      refine (walk_agrees reads).bind (fun v => convert_steady.bind (fun v => ?_))
      extract_lets next next'
      have next_agrees : ∀ spec, Agree (next spec) (next' spec) := by grind -funext
      clear_value next next'
      grind -funext

@[grind ←] theorem fill_agrees (reads : ∀ v name, Agree (read v name) (read' v name)) {depth : Nat} :
    Agree (fill read args depth numbering cs) (fill read' args depth numbering cs) := by
  induction depth generalizing numbering cs with grind -funext [fill]

end Template

@[grind ←] theorem formatTemplate_agrees {read read' : Value → String → Act Value}
    (reads : ∀ v name, Agree (read v name) (read' v name)) {template : String} {args : List Value}
    {named : List (String × Value)} : Agree (formatTemplate read template args named) (formatTemplate read' template args named) := by
  grind -funext [formatTemplate]

/-! Methods. -/

@[grind ←] theorem joinTexts_agrees (alike : m.Alike other) {cs : List Char} :
    Agree (joinTexts m cs args) (joinTexts other cs args) := by
  grind -funext [joinTexts]

section
variable {method : Method}

@[grind ←] theorem callTextMethod_agrees (alike : m.Alike other) {s : String} :
    Agree (callTextMethod m method s args) (callTextMethod other method s args) := by
  unfold callTextMethod
  split
  case h_12 | h_13 =>
    refine Act.between_steady.bind (fun given => ?_)
    split
    · exact Act.textOf_steady.bind (fun part => window_steady.bind (fun found => by grind))
    · exact .pure _
  all_goals grind -funext

@[grind ←] theorem callListMethod_agrees (alike : m.Alike other) :
    Agree (callListMethod m method a args) (callListMethod other method a args) := by
  unfold callListMethod
  refine listItems_steady.bind (fun held => ?_)
  split <;> grind -funext

@[grind ←] theorem callDictMethod_agrees (alike : m.Alike other) :
    Agree (callDictMethod m method a args) (callDictMethod other method a args) := by
  unfold callDictMethod
  refine dictEntries_steady.bind (fun held => ?_)
  split
  case h_8 =>
    refine Act.between_steady.bind (fun given => ?_)
    split
    · refine Act.checkKey_steady.bind (fun _ => ?_)
      split <;> grind
    · exact .pure _
  all_goals grind -funext

@[grind ←] theorem updateSet_agrees (alike : m.Alike other) {members : Array Value} {values : List Value} :
    Agree (updateSet m members values) (updateSet other members values) := by
  induction values generalizing members with grind -funext [updateSet]

@[grind ←] theorem callSetMethod_agrees (alike : m.Alike other) :
    Agree (callSetMethod m method a args) (callSetMethod other method a args) := by
  unfold callSetMethod
  refine setMembers_steady.bind (fun held => ?_)
  split <;> grind -funext

@[grind ←] theorem callMethod_agrees (alike : m.Alike other) :
    Agree (callMethod m method v args) (callMethod other method v args) := by
  unfold callMethod
  obtain ⟨home, name⟩ := method.home
  dsimp only
  split
  · grind -funext
  · grind -funext
  · refine .object _ (fun o _ => ?_)
    split <;> grind -funext
  · grind -funext

end

/-! Builtins. -/

@[grind ←] theorem seek_agrees (alike : m.Alike other) {sought : Bool} :
    Agree (seek m sought a fuel) (seek other sought a fuel) := by
  induction fuel with grind -funext [seek]

section
variable {test : OrderTest}

@[grind ←] theorem extreme_agrees (alike : m.Alike other) {best : Option (Value × Value)} {values : List Value} :
    Agree (extreme m test v best values) (extreme other test v best values) := by
  induction values generalizing best with
  | nil => exact .pure _
  | cons w rest ih => cases v with grind -funext [extreme]

@[grind ←] theorem extremeOf_agrees (alike : m.Alike other) {name : String} :
    Agree (extremeOf m name test args) (extremeOf other name test args) := by
  unfold extremeOf
  refine onlyNamed_steady.bind (fun _ => ?_)
  extract_lets option key best best'
  have best_agrees : ∀ items, Agree (best items) (best' items) := by grind -funext
  clear_value best best'
  split <;> grind -funext

end

@[grind ←] theorem sumOf_agrees (alike : m.Alike other) : Agree (sumOf m args) (sumOf other args) := by
  unfold sumOf
  refine onlyNamed_steady.bind (fun _ => ?_)
  split
  · exact Act.typeError_steady
  · refine Act.iterate_steady.bind (fun a => ?_)
    split <;> grind -funext

@[grind ←] theorem sortedList_agrees (alike : m.Alike other) : Agree (sortedList m args) (sortedList other args) := by
  grind -funext [sortedList]

@[grind ←] theorem callBuiltin_agrees (alike : m.Alike other) {f : Builtin} :
    Agree (callBuiltin m f args) (callBuiltin other f args) := by
  cases f with grind -funext [callBuiltin]

@[grind ←] theorem makeDict_agrees (alike : m.Alike other) : Agree (makeDict m args) (makeDict other args) := by
  grind -funext [makeDict]

@[grind ←] theorem makeKind_agrees (alike : m.Alike other) {k : Kind} : Agree (makeKind m k args) (makeKind other k args) := by
  cases k with grind -funext [makeKind]

@[grind ←] theorem make_agrees (alike : m.Alike other) {c : Class} : Agree (make m c args) (make other c args) := by
  unfold make
  split <;> grind -funext

end

end Workflow.Script
