import Workflow.Proofs.Outcomes
import Workflow.Proofs.Rejections

/-! Failing commands and their exit codes. Each stage of a command catches faults on its own terms. A fault escapes if the
stage that comes to it does not catch it, or cannot write its text. A workflow whose problems are listed is refused by every
command. -/

namespace Workflow
open Script (Entries Heap)
open Engine (Work)

def Fault.isListed : Fault → Bool
  | .invalidDocument _ => true
  | _ => false

namespace Command
variable {w w' : World} {f : Fault} {i : Invocation} {files : FileTree}

/-- The stages of commands: a workflow is validated, a state is loaded, and a call is made. -/
inductive Stage where
  | validating
  | loading
  | calling
  deriving DecidableEq, Repr

variable {stage : Stage}

namespace Stage

/-- Whether a stage takes care of a fault. -/
def catches (h : Heap) (f : Fault) : Stage → Bool
  | .validating => f.isListed || isMissing h f
  | .loading => isMissing h f || f.isValue h
  | .calling => isMissing h f || f.isValue h || !isFatal h f

/-- The exit code for a fault that a stage takes care of. -/
def code (h : Heap) (f : Fault) : Stage → ExitCode
  | .validating => if f.isListed then .refused else .failed
  | .loading => .failed
  | .calling => if f.isListed || f.isValue h && !isMissing h f then .refused else .failed

/-- What becomes of a fault. If it is caught, it is reported, but its text may be one that cannot be written. -/
def outcome (stage : Stage) (f : Fault) (w : World) : Outcome :=
  if stage.catches w.heap f then
    match told f w with
    | .ok _ _ => .exit (stage.code w.heap f)
    | .error g _ => .fault g
  else .fault f

/-- What a stage of a command does about a fault. -/
def settle (i : Invocation) : Stage → Fault → Job ExitCode
  | .validating => settleValidation
  | .loading => settleState
  | .calling =>
    if i.request = .resume then Command.settle resumeLogger "Invalid state" else Command.settle runLogger "Validation error"

end Stage

/-- The entry of a problem of a document. -/
def problemEntry (logger : String) (p : Problem) : JournalEntry :=
  .logged { logger, level := .error, message := s!"Validation error: {p.text}" }

theorem reject_ok (logger : String) (problems : List Problem) (w : World) : ∃ w', reject logger problems w = .ok .refused w' ∧
    w'.journal.toList = w.journal.toList ++ problems.map (problemEntry logger) := by
  have logs : ∃ w', problems.forM (fun p => Job.log .error logger s!"Validation error: {p.text}") w = .ok ⟨⟩ w' ∧
      w'.journal.toList = w.journal.toList ++ problems.map (problemEntry logger) := by
    induction problems generalizing w with
    | nil => exact ⟨w, rfl, (List.append_nil _).symm⟩
    | cons p rest ih =>
      have first : Job.log .error logger s!"Validation error: {p.text}" w =
          .ok ⟨⟩ { w with journal := w.journal.push (problemEntry logger p) } := rfl
      obtain ⟨w', logged, journal⟩ := ih { w with journal := w.journal.push (problemEntry logger p) }
      refine ⟨w', (Work.ok_bind first).trans logged, ?_⟩
      rw [journal, Array.toList_push, List.append_assoc]
      rfl
  obtain ⟨w', logged, journal⟩ := logs
  exact ⟨w', Work.ok_bind logged, journal⟩

namespace Stage
variable {k : String → Job ExitCode}

end Stage

/-- Where a document is loaded, its problems are listed. -/
theorem Stage.settle_listed (later : stage ≠ .loading) (i : Invocation) (problems : List Problem) (w : World) :
    ∃ logger, stage.settle i (.invalidDocument problems) w = reject logger problems w := by
  cases stage with
  | validating => exact ⟨runLogger, rfl⟩
  | loading => exact absurd rfl later
  | calling =>
    by_cases asked : i.request = .resume
    · exact ⟨resumeLogger, by simp only [settle, if_pos asked]; rfl⟩
    · exact ⟨runLogger, by simp only [settle, if_neg asked]; rfl⟩

theorem withSettled_ok {settle : Fault → Job ExitCode} {j : Job ExitCode} {code : ExitCode} (ran : j w = .ok code w') :
    withSettled settle j w = .ok code w' := by
  simp only [withSettled, Bind.bind, EStateM.bind, Job.attempt, ran]
  rfl

theorem withSettled_error {settle : Fault → Job ExitCode} {j : Job ExitCode} (failed : j w = .error f w') :
    withSettled settle j w = settle f w' := by
  simp only [withSettled, Bind.bind, EStateM.bind, Job.attempt, failed]

/-- A command comes to a fault in one of its stages. -/
inductive Stumbles (i : Invocation) (files : FileTree) : Stage → Fault → World → Prop where
  | validating {f : Fault} {w : World} (asked : i.request = .validate) (failed : validate i { files } = .error f w) :
      Stumbles i files .validating f w
  | loading {f : Fault} {w : World} (asked : i.request = .resume)
      (failed : Store.load (FilePath.ofText i.stateFile) { files } = .error f w) : Stumbles i files .loading f w
  | running {schema assignments file} {f : Fault} {w : World} (asked : i.request = .run schema assignments file)
      (failed : run i schema assignments file { files } = .error f w) : Stumbles i files .calling f w
  | resuming {snapshot w₀} {f : Fault} {w : World} (asked : i.request = .resume)
      (loaded : Store.load (FilePath.ofText i.stateFile) { files } = .ok snapshot w₀)
      (failed : resume i snapshot w₀ = .error f w) : Stumbles i files .calling f w

/-- A command leaves a fault to the stage that comes to it. -/
theorem Stumbles.performed (stumbles : Stumbles i files stage f w) : perform i { files } = stage.settle i f w := by
  cases stumbles with
  | validating asked failed =>
    simp only [perform, asked]
    exact withSettled_error failed
  | loading asked failed =>
    simp only [perform, asked, Bind.bind, EStateM.bind, Job.attempt, failed]
    rfl
  | running asked failed =>
    simp only [perform, Stage.settle, asked, reduceCtorEq, if_false]
    exact withSettled_error failed
  | resuming asked loaded failed =>
    simp only [perform, Stage.settle, asked, if_true, Bind.bind, EStateM.bind, Job.attempt, loaded]
    exact withSettled_error failed

/-- A command does not get to load its workflow: a new one at once, or one that goes on when its state has been loaded. -/
inductive Unloaded (i : Invocation) (files : FileTree) (f : Fault) (w : World) : Prop where
  | first (asked : i.request ≠ .resume) (failed : loadWorkflow i.workflow { files } = .error f w)
  | behind {snapshot w₀} (asked : i.request = .resume)
      (loaded : Store.load (FilePath.ofText i.stateFile) { files } = .ok snapshot w₀)
      (failed : loadWorkflow i.workflow w₀ = .error f w)

namespace Unloaded

theorem stumbles (unloaded : Unloaded i files f w) : ∃ stage, stage ≠ .loading ∧ Stumbles i files stage f w := by
  cases unloaded with
  | first asked failed =>
    cases request : i.request with
    | validate =>
      refine ⟨.validating, nofun, .validating request ?_⟩
      simp only [validate, Bind.bind, EStateM.bind, failed]
    | resume => exact absurd request asked
    | run schema assignments file =>
      refine ⟨.calling, nofun, .running request ?_⟩
      simp only [run, Bind.bind, EStateM.bind, failed]
  | behind asked loaded failed =>
    refine ⟨.calling, nofun, .resuming asked loaded ?_⟩
    simp only [resume, Bind.bind, EStateM.bind, failed]

theorem rejection (unloaded : Unloaded i files f w) : f.IsRejection := by
  cases unloaded with
  | first asked failed => exact FailsOnly.loadWorkflow _ _ _ _ failed
  | behind asked loaded failed => exact FailsOnly.loadWorkflow _ _ _ _ failed

/-- If the problems of a workflow are listed, the command refuses it and logs all of them. -/
theorem refused {problems : List Problem} (unloaded : Unloaded i files (.invalidDocument problems) w) :
    ∃ logger w', perform i { files } = .ok .refused w' ∧ ∀ p ∈ problems, problemEntry logger p ∈ w'.journal := by
  obtain ⟨stage, later, stumbles⟩ := unloaded.stumbles
  obtain ⟨logger, rejects⟩ := stage.settle_listed later i problems w
  obtain ⟨w', rejected, journal⟩ := reject_ok logger problems w
  refine ⟨logger, w', (stumbles.performed.trans rejects).trans rejected, fun p member => ?_⟩
  rw [← Array.mem_toList_iff, journal]
  exact List.mem_append_right _ (List.mem_map_of_mem member)

end Unloaded

end Command

end Workflow
