import Workflow.Proofs.Blindness
import Workflow.Proofs.Rejections

/-! What a loader says of a document, over any history of the loader. Checks only add to the problems that are known, so a
validation lists the problems that were left by the call before, and then those of its own document. -/

namespace Workflow
open Engine (answered answered_error answered_ok)
open Script (Act Value)

/-- A job does not look at the problems that are known, and only adds to them. -/
def Adds (job : Job α) : Prop :=
  ∀ w : World, ∃ (answer : Except Fault α) (w' : World) (found : List Problem),
    ∀ left, job { w with problems := left } = answered answer { w' with problems := left ++ found }

namespace Adds

theorem nothing {job : Job α} (quiet : ∀ w : World, ∃ (answer : Except Fault α) (w' : World),
    ∀ left, job { w with problems := left } = answered answer { w' with problems := left }) : Adds job := by
  intro w
  obtain ⟨answer, w', ran⟩ := quiet w
  refine ⟨answer, w', [], fun left => ?_⟩
  rw [ran, List.append_nil]

theorem pure (a : α) : Adds (Pure.pure a : Job α) := nothing (fun w => ⟨.ok a, w, fun _ => rfl⟩)

theorem fail (fault : Fault) : Adds (Job.fail fault : Job α) := nothing (fun w => ⟨.error fault, w, fun _ => rfl⟩)

theorem report (message path : String) : Adds (Job.report message path) := fun w => ⟨.ok (), w, [⟨message, path⟩], fun _ => rfl⟩

theorem act (a : Act α) : Adds (Job.act a) := by
  refine nothing (fun w => ?_)
  simp only [Job.act]
  cases a w.heap with
  | ok v h => exact ⟨.ok v, { w with heap := h }, fun _ => rfl⟩
  | error stop h => exact ⟨.error (.stopped stop), { w with heap := h }, fun _ => rfl⟩

theorem compile (source : String) : Adds (Job.compile source) := by
  refine nothing (fun w => ?_)
  cases made : w.evaluator.compile source with
  | error fault =>
    refine ⟨.error (match fault with | .refused r => .refusedSource source r | .misplaced => .misplaced), w, fun left => ?_⟩
    simp only [Job.compile, Job.compiled, Bind.bind, EStateM.bind, Script.get_result, made]
    cases fault <;> rfl
  | ok found =>
    let after : World := { w with evaluator := found.evaluator, journal := (leftBy (Job.compiled source w)).journal }
    have compiled (left : List Problem) :
        Job.compiled source { w with problems := left } = .ok found.compiled { after with problems := left } := by
      simp only [after, Job.compiled, Bind.bind, EStateM.bind, Script.get_result, made]
      dsimp only [Script.set_result]
      cases found.isNew <;> rfl
    exact ⟨.ok found.compiled.program, after, fun left => Engine.bind_of_eq (a := .ok _) (compiled left)⟩

theorem bind {x : Job α} {k : α → Job β} (first : Adds x) (rest : ∀ a, Adds (k a)) : Adds (x >>= k) := by
  intro w
  obtain ⟨answer, w', found, ran⟩ := first w
  cases answer with
  | error fault => exact ⟨.error fault, w', found, fun left => Engine.Work.error_bind (ran left)⟩
  | ok a =>
    obtain ⟨answer, w'', more, goes⟩ := rest a w'
    refine ⟨answer, w'', found ++ more, fun left => ?_⟩
    rw [Engine.Work.ok_bind (ran left), goes, List.append_assoc]

/-- What is looked up in a world is not its problems. -/
theorem get {k : World → Job α} (same : ∀ w left, k { w with problems := left } = k w) (rest : ∀ w, Adds (k w)) :
    Adds (MonadState.get >>= k) := by
  intro w
  obtain ⟨answer, w', found, ran⟩ := rest w w
  refine ⟨answer, w', found, fun left => ?_⟩
  rw [Engine.Work.ok_bind (Script.get_result _), same]
  exact ran left

theorem attempt {job : Job α} (adds : Adds job) : Adds (Job.attempt job) := by
  intro w
  obtain ⟨answer, w', found, ran⟩ := adds w
  refine ⟨.ok answer, w', found, fun left => ?_⟩
  simp only [Job.attempt, ran]
  cases answer <;> rfl

theorem checkHandler (path : String) (handler : Value) : Adds (Document.checkHandler path handler) := by
  unfold Document.checkHandler
  split
  · split
    · exact report _ _
    · refine (compile _).attempt.bind (fun r => ?_)
      split
      · exact pure _
      · exact report _ _
      · exact fail _
  · exact report _ _

theorem checking : Document.Checking (fun job => Adds job) where
  pure := pure
  bind := bind
  look each := get (fun _ _ => rfl) (fun w => each w.heap)
  act := act
  report := report
  handler := checkHandler

end Adds

/-- The same world with a new loader. -/
def World.newLoader (w : World) : World := { w with problems := [] }

namespace Document

/-- The problems that a call leaves with its loader: those that it lists, if it fails with a list. -/
def leftOver : EStateM.Result Fault World α → List Problem
  | .ok _ _ => []
  | .error (.invalidDocument found) _ => found
  | .error _ w => w.problems

/-- A job leaves no problems, or just those that it lists. -/
def Concluded (job : Job α) : Prop := ∀ w, (leftBy (job w)).problems = leftOver (job w)

namespace Concluded

theorem conclude : Concluded Document.conclude := by
  intro w
  simp only [Document.conclude, Bind.bind, EStateM.bind, Script.get_result]
  cases found : w.problems with
  | nil => exact found
  | cons p rest => exact found

theorem behind {x : Job α} {k : α → Job β} (breaches : FailsOnly Fault.IsBreach x) (rest : ∀ a, Concluded (k a)) :
    Concluded (x >>= k) := by
  intro w
  cases ran : x w with
  | ok a w' => simpa only [Engine.Work.ok_bind ran] using rest a w'
  | error fault w' =>
    rw [Engine.Work.error_bind ran]
    have breach := breaches w fault w' ran
    cases fault with
    | invalidDocument => cases breach
    | _ => rfl

/-- What is given back when no problem was left. -/
theorem give {x : Job α} (concluded : Concluded x) (b : α → β) : Concluded (x >>= fun a => pure (b a)) := by
  intro w
  have left := concluded w
  cases ran : x w with
  | ok a w' =>
    rw [ran] at left
    rw [Engine.Work.ok_bind ran]
    exact left
  | error fault w' =>
    rw [ran] at left
    rw [Engine.Work.error_bind ran]
    cases fault <;> exact left

theorem validate (document : Value) : Concluded (Document.validate document) := by
  rw [validate_eq]
  exact behind (FailsOnly.checking.checks document) (fun _ => conclude)

theorem parsed (failure text : String) : Concluded (Document.parsed failure text) := by
  refine behind (FailsOnly.act _).stops (fun read => ?_)
  split
  · exact behind (.report _ _) (fun _ => conclude.give _)
  · exact (validate _).give _

theorem ofText (text : String) : Concluded (Document.ofText text) := behind (.modify _) (fun _ => parsed _ _)

theorem ofFile (path : FilePath) : Concluded (Document.ofFile path) := by
  refine behind (.modify _) (fun _ => behind .get (fun w => ?_))
  split
  · exact parsed _ _
  · exact behind (.report _ _) (fun _ => conclude.give _)

theorem registerAll (document : Value) : Concluded (Document.registerAll document) := by
  refine behind (.modify _) (fun _ => behind (FailsOnly.sectionEntries _ _).stops (fun steps => ?_))
  refine behind (.forM (fun entry => FailsOnly.buildStep _ _) _) (fun _ => ?_)
  refine behind (FailsOnly.sectionEntries _ _).stops (fun schemas => ?_)
  exact behind (.forM (fun entry => FailsOnly.buildSchema _ _) _) (fun _ => conclude)

theorem build (document : Value) : Concluded (Document.build document) := by
  intro w
  have left := registerAll document { w with registry := {}, listeners := [] }
  simp only [Document.build, Bind.bind, EStateM.bind, Script.get_result, Script.set_result, Job.attempt]
  cases ran : Document.registerAll document { w with registry := {}, listeners := [] } with
  | ok _ w' =>
    rw [ran] at left
    exact left
  | error fault w' =>
    rw [ran] at left
    cases fault <;> exact left

end Concluded

/-- A call of a loader. -/
inductive Loading where
  | load (path : FilePath)
  | loads (text : String)
  | validate (document : Value)
  | build (document : Value)

namespace Loading

def run : Loading → Job Unit
  | .load path => discard (ofFile path)
  | .loads text => discard (ofText text)
  | .validate document => Document.validate document
  | .build document => Document.build document

/-- The call does not begin by forgetting the problems that are known. -/
def isValidation : Loading → Bool
  | .validate _ => true
  | _ => false

theorem concluded (c : Loading) : Concluded c.run := by
  cases c with
  | load path => exact (Concluded.ofFile path).give _
  | loads text => exact (Concluded.ofText text).give _
  | validate document => exact .validate document
  | build document => exact .build document

end Loading

/-- The problems that a loader has been left with, after any calls. In between anything may happen to the world but for the
problems of the loader. -/
inductive History : List Problem → World → Prop where
  | new {w} (none : w.problems = []) : History [] w
  | elsewhere {left w w'} (earlier : History left w) (same : w'.problems = w.problems) : History left w'
  | called {left w} (earlier : History left w) (c : Loading) : History (leftOver (c.run w)) (leftBy (c.run w))

theorem History.problems {left : List Problem} {w : World} (history : History left w) : w.problems = left := by
  induction history with
  | new none => exact none
  | elsewhere earlier same ih => exact same.trans ih
  | called earlier c ih => exact c.concluded _

/-- An answer that lists some problems before its own. -/
def withLeft (left : List Problem) : Except Fault α → Except Fault α
  | .ok a => if left.isEmpty then .ok a else .error (.invalidDocument left)
  | .error (.invalidDocument found) => .error (.invalidDocument (left ++ found))
  | .error fault => .error fault

theorem withLeft_breach {left : List Problem} {fault : Fault} (breach : fault.IsBreach) :
    withLeft left (.error fault : Except Fault α) = .error fault := by
  cases fault with
  | invalidDocument => cases breach
  | _ => rfl

theorem conclude_left (left found : List Problem) (w : World) :
    ∃ answer, conclude { w with problems := found } = answered answer { w with problems := found } ∧
      conclude { w with problems := left ++ found } = answered (withLeft left answer) { w with problems := left ++ found } := by
  cases found with
  | cons p rest =>
    refine ⟨.error (.invalidDocument (p :: rest)), rfl, ?_⟩
    cases left <;> rfl
  | nil =>
    refine ⟨.ok (), rfl, ?_⟩
    rw [List.append_nil]
    cases left <;> rfl

/-- After any calls of a loader, a document has the verdict that it has with a new loader, but for the problems that the last of
the calls left: they are listed once more. The other calls forget them first. -/
theorem verdict_after {left : List Problem} {w : World} (history : History left w) (document : Value) :
    (∃ (answer : Except Fault Unit) (w' : World) (found : List Problem),
      validate document w.newLoader = answered answer { w' with problems := found } ∧
        validate document w = answered (withLeft left answer) { w' with problems := left ++ found }) ∧
    ∀ c : Loading, c.isValidation = false → c.run w = c.run w.newLoader := by
  obtain rfl := history.problems
  refine ⟨?_, fun c forgets => ?_⟩
  · obtain ⟨answer, w', found, ran⟩ := Adds.checking.checks document w
    have fresh := ran []
    have known : checks document w = answered answer { w' with problems := w.problems ++ found } := ran w.problems
    rw [validate_eq]
    cases answer with
    | error fault =>
      refine ⟨.error fault, w', found, Engine.Work.error_bind fresh, ?_⟩
      rw [withLeft_breach (FailsOnly.checking.checks document _ _ _ known)]
      exact Engine.Work.error_bind known
    | ok _ =>
      obtain ⟨answer, own, all⟩ := conclude_left w.problems found w'
      exact ⟨answer, w', found, (Engine.Work.ok_bind fresh).trans own, (Engine.Work.ok_bind known).trans all⟩
  · cases c with
    | load path => rfl
    | loads text => rfl
    | validate document => cases forgets
    | build document => rfl

/-- A mapping without entries, and the mapping of a document that is valid. -/
def twoDocuments : World where
  heap.objects := #[
    .dict #[],
    .dict #[(.str "version", .str "1.0"), (.str "steps", .ref 2), (.str "schemas", .ref 3)],
    .dict #[(.str "a", .str "1")],
    .dict #[(.str "s", .ref 4)],
    .list #[.str "a"]]

/-- The loader of two documents when the first of them was validated. -/
def afterEmpty : World := leftBy ((Loading.validate (.ref 0)).run twoDocuments)

/-- What is wrong with a mapping without entries. -/
def emptyProblems : List Problem :=
  [{ message := "'version' field is required" }, { message := "'steps' field is required and must not be empty" },
   { message := "'schemas' field is required and must not be empty" }]

theorem afterEmpty_history : History emptyProblems afterEmpty := by
  have left : leftOver ((Loading.validate (.ref 0)).run twoDocuments) = emptyProblems := by decide +kernel
  have history := (History.new (w := twoDocuments) rfl).called (.validate (.ref 0))
  rw [left] at history
  exact history

/-- Whether some work fails with just these problems. -/
def listsOnly (problems : List Problem) : EStateM.Result Fault World α → Bool
  | .error (.invalidDocument found) _ => found == problems
  | _ => false

theorem exists_of_listsOnly {problems : List Problem} {result : EStateM.Result Fault World α}
    (lists : listsOnly problems result = true) : ∃ w, result = .error (.invalidDocument problems) w := by
  unfold listsOnly at lists
  split at lists
  · rw [eq_of_beq lists]
    exact ⟨_, rfl⟩
  · cases lists

/-- A document that is valid is refused for what was wrong with the document before it. -/
theorem valid_document_refused : History emptyProblems afterEmpty ∧
    (∃ w, validate (.ref 1) afterEmpty = .error (.invalidDocument emptyProblems) w) ∧
    ∃ w, validate (.ref 1) afterEmpty.newLoader = .ok () w := by
  have refused : listsOnly emptyProblems (validate (.ref 1) afterEmpty) = true := by decide +kernel
  have accepted : Engine.passes (fun _ _ => true) (validate (.ref 1) afterEmpty.newLoader) = true := by decide +kernel
  obtain ⟨_, w, ran, -⟩ := Engine.exists_of_passes accepted
  exact ⟨afterEmpty_history, exists_of_listsOnly refused, w, ran⟩

/-- The verdict of a new loader, behind the problems of the document before. -/
theorem verdict_after_empty : ∃ (answer : Except Fault Unit) (w : World) (found : List Problem),
    validate (.ref 1) afterEmpty.newLoader = answered answer { w with problems := found } ∧
      validate (.ref 1) afterEmpty = answered (withLeft emptyProblems answer) { w with problems := emptyProblems ++ found } :=
  (verdict_after afterEmpty_history (.ref 1)).1

end Document

end Workflow
