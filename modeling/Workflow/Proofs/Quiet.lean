import Workflow.Command.Outcome
import Workflow.Proofs.Checks
import Workflow.Proofs.Keeping

/-! What is done before a call and during it. Documents are loaded and built, states and contexts are read, and steps
are run without a change of any file and without a line that is shown besides the log. -/

namespace Workflow
open Script (Act Entries Value)

/-- An entry that is a line of its own, whatever is logged. -/
def JournalEntry.isLine : JournalEntry → Bool
  | .printed _ => true
  | .complained _ => true
  | _ => false

/-- What is shown besides the log. -/
def World.lines (w : World) : List JournalEntry := w.journal.toList.filter JournalEntry.isLine

/-- Some work changes no file and shows nothing besides the log. -/
def Quiet (w w' : World) : Prop := w'.files = w.files ∧ w'.lines = w.lines

theorem World.lines_logged (w : World) (r : LogRecord) :
    ({ w with journal := w.journal.push (.logged r) } : World).lines = w.lines := by
  simp [lines, JournalEntry.isLine]

/-! What is read, and what commands are given. -/

namespace Tolerant
variable {S : World → World → Prop} (tolerant : Tolerant (fun _ _ => True) S)
include tolerant

theorem read (path : FilePath) : Along S (Store.read path) := by
  refine tolerant.bind tolerant.get (fun w => ?_)
  split
  · exact tolerant.pure _
  · exact tolerant.fail _

theorem parse (text : String) (refusal : Invalid) : Along S (Store.parse text refusal) := by
  unfold Store.parse
  split
  · exact tolerant.any (fun _ _ => trivial) _
  · exact tolerant.refuse _
  · exact tolerant.any (fun _ _ => trivial) _

theorem valueOf (text : String) : Along S (Command.valueOf text) := by
  unfold Command.valueOf
  split
  · exact tolerant.any (fun _ _ => trivial) _
  · exact tolerant.pure _
  · exact tolerant.any (fun _ _ => trivial) _

theorem inputOf (text : Option String) : Along S (Command.inputOf text) := by
  cases text with
  | none => exact tolerant.pure _
  | some text => exact tolerant.valueOf text

theorem fileEntries (file : String) : Along S (Command.fileEntries file) := by
  refine tolerant.bind tolerant.get (fun w => ?_)
  extract_lets rest
  have found : ∀ u, Along S (rest u) := by
    intro u
    refine tolerant.bind (tolerant.read _) (fun text => tolerant.bind (tolerant.parse _ _) (fun v => ?_))
    refine tolerant.bind (tolerant.bind tolerant.get (fun w => tolerant.pure _)) (fun found => ?_)
    split
    · exact tolerant.pure _
    · exact tolerant.bind tolerant.get (fun _ => tolerant.refuse _)
  exact tolerant.either (tolerant.fail _) found (found ())

theorem assign (found : Entries) (assignments : List String) : Along S (Command.assign found assignments) := by
  induction assignments generalizing found with
  | nil => exact tolerant.pure _
  | cons item rest ih =>
    unfold Command.assign
    split
    · exact tolerant.refuse _
    · exact tolerant.bind (tolerant.valueOf _) (fun _ => ih _)

theorem contextOf (file : Option String) (assignments : List String) : Along S (Command.contextOf file assignments) := by
  unfold Command.contextOf
  extract_lets rest
  have assigned : ∀ found, Along S (rest found) := fun _ =>
    tolerant.bind (tolerant.assign _ _) (fun _ => tolerant.any (fun _ _ => trivial) _)
  split
  · exact tolerant.either (tolerant.pure _) assigned (tolerant.bind (tolerant.fileEntries _) assigned)
  · exact tolerant.bind (tolerant.pure _) assigned

end Tolerant

/-- A relation between worlds that puts up with changes of the heap, of what is registered and of the listeners, with
problems that are reported, and with the log. -/
structure Steady (S : World → World → Prop) : Prop extends Tolerant (fun _ _ => True) S where
  reported : ∀ w p, S w { w with problems := w.problems ++ [p] }
  registered : ∀ w registry, S w { w with registry := registry }
  attached : ∀ w listeners, S w { w with listeners := listeners }

/-- A relation that also puts up with problems that are forgotten. -/
structure Patient (S : World → World → Prop) : Prop extends Steady S where
  forgot : ∀ w, S w { w with problems := [] }

theorem Quiet.patient : Patient Quiet where
  refl _ := ⟨rfl, rfl⟩
  trans first second := ⟨second.1.trans first.1, second.2.trans first.2⟩
  heap _ _ _ := ⟨rfl, rfl⟩
  compiled _ _ _ _ := ⟨rfl, rfl⟩
  logged w r := ⟨rfl, w.lines_logged r⟩
  reported _ _ := ⟨rfl, rfl⟩
  registered _ _ := ⟨rfl, rfl⟩
  attached _ _ := ⟨rfl, rfl⟩
  forgot _ := ⟨rfl, rfl⟩

namespace Steady
variable {S : World → World → Prop} (steady : Steady S)
include steady

theorem act (a : Act α) : Along S (Job.act a) := steady.any (fun _ _ => trivial) a

theorem text (v : Value) : Along S (Job.shown v) := steady.act _

theorem report (message path : String) : Along S (Job.report message path) := fun w => steady.reported w _

/-! Registration. -/

theorem addStep (s : Step) : Along S (Executor.addStep s) := by
  intro w
  simp only [Executor.addStep, Bind.bind, EStateM.bind, Script.get_result]
  split
  · exact steady.refl w
  · exact steady.trans (steady.registered w _) (steady.log _ _ _ _)

theorem register (id items space : Value) : Along S (Executor.register id items space) := by
  refine steady.bind (steady.act _) (fun _ => steady.bind steady.get (fun w => ?_))
  extract_lets note enter
  have noted : ∀ text, Along S (note text) := fun _ => steady.bind (steady.text _) (fun _ => steady.log _ _ _)
  have entered : ∀ u, Along S (enter u) := by
    intro u
    refine steady.bind (steady.normalise (fun _ _ => trivial) _ _ _) (fun schema => ?_)
    refine steady.bind (steady.checkSteps _ _) (fun _ => steady.bind (steady.checkConditions _ _) (fun _ => ?_))
    refine steady.bind (fun w => steady.registered w _)
      (fun _ => steady.bind (steady.space (fun _ _ => trivial) _) (fun space => ?_))
    split
    · exact steady.bind (steady.pure _) noted
    · exact steady.bind (steady.pure _) noted
  exact steady.either (steady.fail _) entered (entered ())

/-! Checks of documents. -/

theorem checkHandler (path : String) (handler : Value) : Along S (Document.checkHandler path handler) := by
  unfold Document.checkHandler
  split
  · split
    · exact steady.report _ _
    · refine steady.bind (Tolerant.attempt (steady.compile _)) (fun r => ?_)
      split
      · exact steady.pure _
      · exact steady.report _ _
      · exact steady.fail _
  · exact steady.report _ _

theorem checking : Document.Checking (fun job => Along S job) where
  pure := steady.pure
  bind := steady.bind
  look each := steady.bind steady.get (fun w => each w.heap)
  act := steady.act
  report := steady.report
  handler := steady.checkHandler

theorem entries? (v : Value) : Along S (Document.entries? v) := steady.checking.entries? v

theorem isList (v : Value) : Along S (Document.isList v) := steady.checking.isList v

theorem optionalPart (v : Value) (name : String) : Along S (Document.optionalPart v name) := steady.checking.optionalPart v name

theorem conclude : Along S Document.conclude := by
  refine steady.bind steady.get (fun w => ?_)
  dsimp only
  split
  · exact steady.fail _
  · exact steady.pure _

theorem validate (document : Value) : Along S (Document.validate document) := by
  rw [Document.validate_eq]
  exact steady.bind (steady.checking.checks document) (fun _ => steady.conclude)

theorem parsed (failure text : String) : Along S (Document.parsed failure text) := by
  refine steady.bind (steady.act _) (fun read => ?_)
  split
  · exact steady.bind (steady.report _ _) (fun _ => steady.bind steady.conclude (fun _ => steady.pure _))
  · exact steady.bind (steady.validate _) (fun _ => steady.pure _)

/-! Executors from documents. -/

theorem sectionEntries (document : Value) (name : String) : Along S (Document.sectionEntries document name) := by
  refine steady.bind (steady.act _) (fun v => steady.bind (steady.entries? _) (fun found => ?_))
  split
  · exact steady.pure _
  · exact steady.bind steady.get (fun w => steady.act _)

theorem buildStep (id config : Value) : Along S (Document.buildStep id config) := by
  unfold Document.buildStep
  extract_lets rest
  have built : ∀ config, Along S (rest config) := by
    intro config
    refine steady.bind (steady.act _) (fun handler => steady.bind (steady.optionalPart _ _) (fun input => ?_))
    refine steady.bind (steady.optionalPart _ _) (fun globals => ?_)
    exact steady.bind (steady.make (fun _ _ => trivial) _ _ _ _) (fun s => steady.addStep s)
  split
  · exact steady.bind (steady.act _) built
  · exact steady.bind (steady.pure _) built

theorem registerSchema (id config : Value) : Along S (Document.registerSchema id config) := by
  refine steady.bind (steady.isList _) (fun listed => ?_)
  extract_lets rest
  have entered : ∀ config, Along S (rest config) := fun config =>
    steady.bind (steady.act _) (fun _ => steady.bind (steady.optionalPart _ _) (fun _ => steady.register _ _ _))
  exact steady.either (steady.act _) entered (steady.bind (steady.pure _) entered)

theorem buildSchema (id config : Value) : Along S (Document.buildSchema id config) := by
  refine steady.bind (Tolerant.attempt (steady.registerSchema id config)) (fun r => ?_)
  split
  · exact steady.pure _
  · split
    · exact steady.bind steady.get (fun w => steady.bind (steady.text _) (fun _ => steady.report _ _))
    · exact steady.fail _

/-! Stored states. -/

theorem load (path : FilePath) : Along S (Store.load path) := by
  refine steady.bind steady.get (fun w => ?_)
  extract_lets rest
  have loaded : ∀ u, Along S (rest u) := by
    intro u
    refine steady.bind (steady.read _) (fun text => steady.bind (steady.parse _ _) (fun v => ?_))
    refine steady.bind steady.get (fun w => ?_)
    split
    · split
      · exact steady.pure _
      · exact steady.refuse _
    · exact steady.refuse _
  exact steady.either (steady.fail _) loaded (loaded ())

theorem textOf (schema snapshot : Value) : Along S (Store.textOf schema snapshot) := by
  refine steady.bind steady.get (fun w => ?_)
  split
  · exact steady.pure _
  · exact steady.act _
  · exact steady.bind (steady.text _) (fun _ => steady.refuse _)

theorem listen (i : Command.Invocation) : Along S (Command.listen i) := by
  unfold Command.listen
  split
  · exact fun w => steady.attached w _
  · exact steady.pure _

theorem audience : Command.audience.Heeds S := steady.logging (fun _ _ _ => trivial)

end Steady

/-! Documents from their files. -/

namespace Patient
variable {S : World → World → Prop} (patient : Patient S)
include patient

theorem ofFile (path : FilePath) : Along S (Document.ofFile path) := by
  refine patient.bind (fun w => patient.forgot w) (fun _ => patient.bind patient.get (fun w => ?_))
  split
  · exact patient.parsed _ _
  · exact patient.bind (patient.report _ _) (fun _ => patient.bind patient.conclude (fun _ => patient.pure _))

theorem registerAll (document : Value) : Along S (Document.registerAll document) := by
  refine patient.bind (fun w => patient.forgot w) (fun _ => patient.bind (patient.sectionEntries _ _) (fun steps => ?_))
  refine patient.bind (patient.forM (fun entry => patient.buildStep _ _) _) (fun _ => ?_)
  refine patient.bind (patient.sectionEntries _ _) (fun schemas => ?_)
  exact patient.bind (patient.forM (fun entry => patient.buildSchema _ _) _) (fun _ => patient.conclude)

theorem build (document : Value) : Along S (Document.build document) := by
  intro w
  have cleared : S w { w with registry := {}, listeners := [] } :=
    patient.trans (patient.registered w {}) (patient.attached _ [])
  refine patient.trans cleared ?_
  change S _ (leftBy ((Job.attempt (Document.registerAll document) >>= _) _))
  refine patient.bind (Tolerant.attempt (patient.registerAll document)) (fun r => ?_) _
  split
  · exact patient.pure _
  · refine patient.bind (fun w' => ?_) (fun _ => patient.fail _)
    exact patient.trans (patient.registered w' w.registry) (patient.attached _ w.listeners)

theorem loadWorkflow (file : String) : Along S (Command.loadWorkflow file) := by
  refine patient.bind patient.get (fun w => ?_)
  extract_lets files path rest
  have loaded : ∀ u, Along S (rest u) := fun _ =>
    patient.bind (patient.log _ _ _) (fun _ => patient.bind (patient.ofFile _) (fun _ => patient.build _))
  exact patient.either (patient.fail _) loaded (loaded ())

end Patient

end Workflow
