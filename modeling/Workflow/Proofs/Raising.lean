import Workflow.Proofs.Listeners
import Workflow.Proofs.Retries

/-! Raising a failure that can be retried and returning it. Take two executors that differ in their steps only, of which some
raise on the second what they return on the first: to all who call them they are the same. -/

namespace Workflow
open Script (Act Heap Stop Value)
open Engine (Agree AgreeUnless Deed Event HostsAgreeUnless Level Outcome View answered answered_inj deedsOf)

namespace Step

/-- What a step reports, in some heap. A value that is no report counts as nothing. -/
def reportIn (h : Heap) (v : Value) : Value := if isReport { heap := h } v then v else .nothing

/-- What the handler of a step does on a context and an input. -/
inductive Runs (s : Step) (builtins : List (String × Value)) (context input : Value) : Act Value → Prop where
  | source {text program} (written : s.handler = .source text) (compiled : Script.compile text = .ok program) :
      Runs s builtins context input (Script.evaluate builtins program (s.bindings context input) >>= Script.awaited)
  | call {f} (called : s.handler = .call f) :
      Runs s builtins context input (Script.callValue f [context, input] >>= Script.awaited)

/-- Two ends of a handler, which leave the same values and report the same, or of which the second raises a failure that can
be retried where the first returns it. A script gets to see the addresses of values, so these are the same too. -/
inductive Matches : EStateM.Result Stop Heap Value → EStateM.Result Stop Heap Value → Prop where
  | reported {v w h} (same : reportIn h v = reportIn h w) : Matches (.ok v h) (.ok w h)
  | failed {stop h} : Matches (.error stop h) (.error stop h)
  | raised {failure h} (retriable : Job.isRetriable { heap := h } failure = true) :
      Matches (.ok failure h) (.error (.raised failure) h)

/-- On a context and an input, the second step does what the first does, except that it may raise what the first returns. -/
def RaisesOn (s t : Step) (builtins : List (String × Value)) (context input : Value) (h : Heap) : Prop :=
  ∃ a b, s.Runs builtins context input a ∧ t.Runs builtins context input b ∧ Matches (a h) (b h)

/-- Two steps that differ in their handlers only. -/
structure Twin (s t : Step) : Prop where
  id : s.id = t.id
  input : s.input = t.input

/-- On every context and input, the second step does what the first does, except that it may raise what the first returns. -/
structure Raises (s t : Step) : Prop extends Twin s t where
  handlers (builtins : List (String × Value)) (context input : Value) (h : Heap) : s.RaisesOn t builtins context input h

end Step

/-- Two worlds with the same values, at the same addresses, and the same schemas, one with some steps and one with others.
Their journals and what they have compiled so far may differ. -/
structure World.Paired (ss ts : List Step) (v w : World) : Prop where
  heap : v.heap = w.heap
  schemas : v.registry.schemas = w.registry.schemas
  left : v.registry.steps = ss
  right : w.registry.steps = ts
  listeners : v.listeners = w.listeners
  files : v.files = w.files
  problems : v.problems = w.problems
  builtins : v.evaluator.builtins = w.evaluator.builtins
  honest : v.evaluator.Honest
  honest' : w.evaluator.Honest

namespace Script.Evaluator
variable {e : Evaluator} {source : String}

theorem compile_builtins {found : Outcome} (ran : e.compile source = .ok found) : found.evaluator.builtins = e.builtins := by
  unfold Evaluator.compile at ran
  split at ran
  · cases ran
    rfl
  · split at ran <;> cases ran
    rfl

theorem Honest.compile_error (honest : e.Honest) {fault : CompileFault} (refused : Script.compile source = .error fault) :
    e.compile source = .error fault := by
  unfold Evaluator.compile
  cases known : e.cached? source with
  | some compiled => cases refused.symm.trans (honest source compiled known)
  | none => simp only [refused]

end Script.Evaluator

namespace Job

/-- A fault of compiling, as a job fails with it. -/
def refusal (source : String) : Script.CompileFault → Fault
  | .refused r => .refusedSource source r
  | .misplaced => .misplaced

/-- What compiling a source comes to does not depend on what was compiled before. -/
theorem compile_honest {w : World} (honest : w.evaluator.Honest) (source : String) :
    ∃ evaluator journal, evaluator.Honest ∧ evaluator.builtins = w.evaluator.builtins ∧
      compile source w = answered ((Script.compile source).mapError (refusal source)) { w with evaluator, journal } := by
  cases made : Script.compile source with
  | error fault =>
    refine ⟨w.evaluator, w.journal, honest, rfl, ?_⟩
    unfold compile Job.compiled
    simp only [Bind.bind, EStateM.bind, Script.get_result, honest.compile_error made]
    cases fault <;> rfl
  | ok program =>
    obtain ⟨found, ran⟩ := Script.Evaluator.compile_of_ok (e := w.evaluator) made
    obtain ⟨later, same⟩ := honest.compile ran
    obtain rfl := Except.ok.inj (same.symm.trans made)
    have compiled : ∃ journal, Job.compiled source w = .ok found.compiled { w with evaluator := found.evaluator, journal } := by
      simp only [Job.compiled, Bind.bind, EStateM.bind, Script.get_result, ran]
      dsimp only [Script.set_result]
      split <;> exact ⟨_, rfl⟩
    obtain ⟨journal, compiled⟩ := compiled
    exact ⟨found.evaluator, journal, later, Script.Evaluator.compile_builtins ran, Engine.bind_of_eq (a := .ok _) compiled⟩

end Job

namespace World.Paired
variable {ss ts : List Step}

theorem compile (source : String) : Agree (World.Paired ss ts) (Job.compile source) (Job.compile source) := by
  intro v w paired
  obtain ⟨evaluator, journal, honest, standard, left⟩ := Job.compile_honest paired.honest source
  obtain ⟨evaluator', journal', honest', standard', right⟩ := Job.compile_honest paired.honest' source
  exact ⟨_, _, _, left, right, { paired with
    builtins := standard.trans (paired.builtins.trans standard'.symm)
    honest := honest
    honest' := honest' }⟩

/-- Which steps there are is out of sight, until one of them is invoked. -/
theorem hides (ss ts : List Step) : Hides (World.Paired ss ts) where
  heap paired := paired.heap
  schemas paired := paired.schemas
  builtins paired := paired.builtins
  kept paired _ := { paired with heap := rfl }
  logged paired _ := { paired with }
  compile := compile

end World.Paired

namespace Step
variable {s t : Step} {context input : Value}

/-- What a step makes of the end of its handler. -/
def reported : EStateM.Result Stop Heap Value → Except Fault Value
  | .ok v h => .ok (reportIn h v)
  | .error stop _ => .error (.stopped stop)

theorem awaited_reported (x : Act Value) (w : World) :
    (do
      let v ← Job.act x
      let v ← Job.act (Script.awaited v)
      return if isReport (← MonadState.get) v then v else .nothing : Job Value) w =
    answered (reported ((x >>= Script.awaited) w.heap)) { w with heap := leftBy ((x >>= Script.awaited) w.heap) } := by
  simp only [Bind.bind, EStateM.bind, Job.act]
  cases x w.heap with
  | error stop h => rfl
  | ok v h =>
    dsimp only
    cases Script.awaited v h <;> rfl

/-- What a step does that has its input: it runs its handler, and counts as done unless that reports something. -/
theorem handle_runs {w : World} {a : Act Value} (runs : s.Runs w.evaluator.builtins context input a) (honest : w.evaluator.Honest)
    (given : (s.requiresInput && !isPresent input) = false) :
    ∃ evaluator journal, evaluator.Honest ∧ evaluator.builtins = w.evaluator.builtins ∧
      s.handle context input w = answered (reported (a w.heap)) { w with heap := leftBy (a w.heap), evaluator, journal } := by
  unfold handle
  rw [given]
  cases runs with
  | @source text program written compiled =>
    obtain ⟨evaluator, journal, honest', standard, ran⟩ := Job.compile_honest honest text
    rw [compiled] at ran
    refine ⟨evaluator, journal, honest', standard, ?_⟩
    rw [← standard, written]
    exact (Engine.Work.ok_bind ran).trans (awaited_reported _ { w with evaluator, journal })
  | call called =>
    refine ⟨w.evaluator, w.journal, honest, rfl, ?_⟩
    rw [called]
    exact awaited_reported _ w

theorem outcomeOf_retriable {failure : Value} {w : World} (retriable : Job.isRetriable w failure = true) :
    Job.outcomeOf failure w = (do return Outcome.failed (← Job.haltOfFailure failure) : Job Outcome) w := by
  rw [Call.outcomeOf_eq]
  unfold Job.isRetriable at retriable
  cases found : failure.classOf w.heap with
  | error c => rfl
  | kind k =>
    rw [found] at retriable
    cases retriable

theorem reportIn_retriable {failure : Value} {h : Heap} (retriable : Job.isRetriable { heap := h } failure = true) :
    reportIn h failure = failure := by
  have reports : isReport { heap := h } failure = true := by
    unfold Job.isRetriable at retriable
    unfold isReport
    cases found : failure.classOf h with
    | error c =>
      simp only [found] at retriable ⊢
      exact retriable
    | kind k =>
      simp only [found] at retriable
      cases retriable
  rw [reportIn, if_pos reports]

theorem react_returned {w w' : World} {report : Value} (ran : s.handle context input w = .ok report w') :
    s.react context input w = Job.outcomeOf report w' := by
  have caught : Job.orRetriable (s.handle context input) w = .ok (.ok report) w' := by simp only [Job.orRetriable, ran]
  rw [react, Engine.Work.ok_bind caught]

theorem react_raised {w w' : World} {failure : Value}
    (ran : s.handle context input w = .error (.stopped (.raised failure)) w')
    (retriable : Job.isRetriable w' failure = true) :
    s.react context input w = (do return Outcome.failed (← Job.haltOfFailure failure) : Job Outcome) w' := by
  have caught : Job.orRetriable (s.handle context input) w = .ok (.error failure) w' := by
    simp only [Job.orRetriable, ran, retriable, if_true]
  rw [react, Engine.Work.ok_bind caught]

/-- A step that raises what another one returns comes to the same. -/
theorem react_paired {ss ts : List Step} {v w : World} (twin : s.Twin t) (paired : World.Paired ss ts v w)
    (raises : (s.requiresInput && !isPresent input) = false →
      s.RaisesOn t v.evaluator.builtins context input v.heap) : ∃ a v' w', s.react context input v = answered a v' ∧
        t.react context input w = answered a w' ∧ World.Paired ss ts v' w' := by
  have hides := World.Paired.hides ss ts
  have same : (t.requiresInput && !isPresent input) = (s.requiresInput && !isPresent input) := by
    rw [requiresInput, requiresInput, twin.input]
  cases given : s.requiresInput && !isPresent input with
  | true =>
    -- both ask for their input, and their handlers do not run
    have handle : t.handle context input = s.handle context input := by
      rw [handle, handle, same, given, twin.id, twin.input]
      rfl
    have react : t.react context input = s.react context input := by rw [Step.react, Step.react, handle]
    rw [react]
    exact hides.react s context input v w paired
  | false =>
    obtain ⟨a, b, runs, runs', ends⟩ := raises given
    rw [paired.builtins] at runs'
    obtain ⟨evaluator, journal, honest, standard, left⟩ := handle_runs runs paired.honest given
    obtain ⟨evaluator', journal', honest', standard', right⟩ := handle_runs runs' paired.honest' (same.trans given)
    have later (h : Heap) : World.Paired ss ts { v with heap := h, evaluator, journal }
        { w with heap := h, evaluator := evaluator', journal := journal' } :=
      { paired with
        heap := rfl
        builtins := standard.trans (paired.builtins.trans standard'.symm)
        honest := honest
        honest' := honest' }
    rw [← paired.heap] at right
    generalize a v.heap = first at ends left
    generalize b v.heap = second at ends right
    cases ends with
    | @reported x y h same =>
      have same : reported (.ok x h) = reported (.ok y h) := congrArg Except.ok same
      rw [same] at left
      exact hides.react_of left right (later h)
    | failed => exact hides.react_of left right (later _)
    | @raised failure h retriable =>
      have returned := react_returned left
      rw [reportIn_retriable retriable] at returned
      rw [returned.trans (outcomeOf_retriable retriable), react_raised right retriable]
      exact (hides.haltOfFailure _).bind (fun _ => .pure _) _ _ (later h)

theorem find?_related {R : Step → Step → Prop} (named : ∀ s t, R s t → s.id = t.id) {ss ts : List Step}
    (related : List.Forall₂ R ss ts) (id : String) :
    Option.Rel R (ss.find? (·.id == id)) (ts.find? (·.id == id)) := by
  induction related with
  | nil => exact .none
  | @cons s t ss ts first rest ih =>
    rw [List.find?_cons, List.find?_cons, named s t first]
    cases t.id == id with
    | true => exact .some first
    | false => exact ih

end Step

/-- A step that is invoked gets to run on what it is given, and then its counterpart may raise what it returns. -/
def Call.Fits (call : Call) (ss ts : List Step) : Deed World → Prop
  | .checked _ _ _ _ _ _ => True
  | .invoked id literal supplied _ w _ _ => ∀ s t input h, ss.find? (·.id == id) = some s → ts.find? (·.id == id) = some t →
      mergeInput literal supplied w.heap = .ok input h → (s.requiresInput && !isPresent input) = false →
      s.RaisesOn t w.evaluator.builtins call.context input h

theorem Call.fits_raises {ss ts : List Step} (raises : List.Forall₂ Step.Raises ss ts) (call : Call) (d : Deed World) :
    call.Fits ss ts d := by
  cases d with
  | checked => trivial
  | invoked id literal supplied place w answer w' =>
    intro s t input h found found' _ _
    have known := Step.find?_related (fun _ _ raises => raises.id) raises id
    rw [found, found'] at known
    cases known with
    | some raises => exact raises.handlers _ _ _ _

/-- Listeners leave worlds paired that are. -/
def Audience.Overlooks (audience : Audience) (ss ts : List Step) : Prop :=
  ∀ l n v w, World.Paired ss ts v w → World.Paired ss ts (audience l n v).2 (audience l n w).2

theorem Audience.Observes.overlooks {audience : Audience} (observes : audience.Observes) (ss ts : List Step) :
    audience.Overlooks ss ts := by
  intro l n v w paired
  obtain ⟨journal, left⟩ := observes l n v
  obtain ⟨journal', right⟩ := observes l n w
  rw [left, right]
  exact { paired with }

section
variable {audience : Audience} {ss ts : List Step} (overlooks : audience.Overlooks ss ts)
include overlooks

theorem Trace.deliverTo_paired (n : Notice) (listeners : List Nat) :
    Agree (World.Paired ss ts) (deliverTo audience n listeners) (deliverTo audience n listeners) := by
  induction listeners with
  | nil => exact .pure ()
  | cons l rest ih =>
    intro v w paired
    obtain ⟨v₁, left, same⟩ := deliverTo_cons audience n l rest v
    obtain ⟨w₁, right, same'⟩ := deliverTo_cons audience n l rest w
    have told := overlooks l n v w paired
    rw [left, right]
    apply ih
    obtain rfl | ⟨r, rfl⟩ := same <;> obtain rfl | ⟨r', rfl⟩ := same' <;> exact { told with }

theorem Trace.deliver_paired (extra : Option Nat) (n : Notice) :
    Agree (World.Paired ss ts) (deliver audience extra n) (deliver audience extra n) := by
  refine Hides.get (fun v w paired => ?_)
  rw [paired.listeners]
  exact deliverTo_paired overlooks n _

end

namespace Call
variable {audience : Audience} {ss ts : List Step} {call : Call} {v v' w w' : World}
  {log log' : List (Engine.Moment World)} {m m' : Engine.Moment World}

/-- Two traversals of a call in paired worlds, so far the same was told of in both. -/
structure Even (ss ts : List Step) (call : Call) (v w : World × List (Engine.Moment World)) : Prop where
  paired : World.Paired ss ts v.1 w.1
  same : call.announcements v.2 = call.announcements w.2

/-- A step was invoked whose counterpart does something else. -/
def Strays (ss ts : List Step) (call : Call) (v : World × List (Engine.Moment World)) : Prop :=
  ∃ d ∈ deedsOf v.2, ¬ call.Fits ss ts d

theorem Even.more (even : Even ss ts call (v, log) (w, log')) (paired : World.Paired ss ts v' w')
    (same : call.announcements [m] = call.announcements [m']) : Even ss ts call (v', log ++ [m]) (w', log' ++ [m']) where
  paired := paired
  same := by rw [announcements_append, announcements_append, even.same, same]

theorem Strays.more (strays : Strays ss ts call (v, log)) : Strays ss ts call (v', log ++ [m]) := by
  obtain ⟨d, done, strays⟩ := strays
  refine ⟨d, ?_, strays⟩
  rw [Engine.deedsOf_append]
  exact List.mem_append_left _ done

theorem emit_delivered (audience : Audience) {call : Call} {event : Event} {v : View} {w w₁ : World} {n : Notice}
    (announced : call.announce event v w = .ok n w₁) : ∃ w', call.emit audience event v w = .ok () w' ∧
      Trace.deliver audience call.listener n w₁ = .ok () w' ∧ call.announced? (.told event v w w') = some (n, w₁) := by
  obtain ⟨w', delivered⟩ := Trace.deliverTo_ok audience n (w₁.listeners ++ call.listener.toList) w₁
  refine ⟨w', ?_, delivered, ?_⟩
  · rw [emit_eq, Engine.Work.ok_bind announced]
    exact delivered
  · simp only [announced?, announced]

theorem emit_paired (overlooks : audience.Overlooks ss ts) (call : Call) (event : Event) (view : View)
    (even : Even ss ts call (v, log) (w, log')) : ∃ a p q, (call.host audience).observed.emit event view (v, log) = answered a p ∧
      (call.host audience).observed.emit event view (w, log') = answered a q ∧ Even ss ts call p q := by
  obtain ⟨announced, v₁, w₁, first, second, paired⟩ :=
    announce_agree (World.Paired.hides ss ts) call event view v w even.paired
  cases announced with
  | error fault =>
    obtain ⟨missed, silent⟩ := emit_missed audience first
    obtain ⟨missed', silent'⟩ := emit_missed audience second
    refine ⟨.error fault, _, _, Engine.observed_missed (call.host audience) v log missed,
      Engine.observed_missed (call.host audience) w log' missed', even.more paired ?_⟩
    rw [announcements_unannounced silent, announcements_unannounced silent']
  | ok n =>
    obtain ⟨v', told, delivered, announced⟩ := emit_delivered audience first
    obtain ⟨w', told', delivered', announced'⟩ := emit_delivered audience second
    obtain ⟨_, _, _, left, right, paired'⟩ := Trace.deliver_paired overlooks call.listener n v₁ w₁ paired
    obtain ⟨-, rfl⟩ := answered_inj ((show _ = answered (.ok ()) v' from delivered).symm.trans left)
    obtain ⟨-, rfl⟩ := answered_inj ((show _ = answered (.ok ()) w' from delivered').symm.trans right)
    refine ⟨.ok (), _, _, Engine.observed_told (call.host audience) v log told,
      Engine.observed_told (call.host audience) w log' told', even.more paired' ?_⟩
    rw [announcements_announced announced, announcements_announced announced', paired.heap]

theorem invoke_paired (twins : List.Forall₂ Step.Twin ss ts) (paired : World.Paired ss ts v w) {id : String}
    {literal supplied : Value} {place : List Int} {answer : Except Fault Outcome}
    (fits : call.Fits ss ts (.invoked id literal supplied place v answer v')) : ∃ a v' w',
      call.invoke id literal supplied place v = answered a v' ∧ call.invoke id literal supplied place w = answered a w' ∧
        World.Paired ss ts v' w' := by
  apply (World.Paired.hides ss ts).invoke call literal supplied place paired
  rw [Registry.step?, Registry.step?, paired.left, paired.right]
  have known := Step.find?_related (fun _ _ twin => twin.id) twins id
  generalize found : ss.find? (·.id == id) = a at known
  generalize found' : ts.find? (·.id == id) = b at known
  cases known with
  | none => exact .none
  | @some s t twin =>
    refine .some (fun input v' w' merged same paired' => Step.react_paired twin paired' (fun given => ?_))
    rw [same]
    exact fits s t input v'.heap found found' merged given

theorem check_even (role : Engine.Role) (c : Condition) (place : List Int) :
    AgreeUnless (Strays ss ts call) (Even ss ts call) ((call.host audience).observed.check role c place)
      ((call.host audience).observed.check role c place) where
  lasts := by
    rintro ⟨v, log⟩ strays
    obtain ⟨answer, v', found⟩ := Engine.exists_answered ((call.host audience).check role c place v)
    exact ⟨answer, _, Engine.observed_check (call.host audience) v log answer found, strays.more⟩
  agrees := by
    rintro ⟨v, log⟩ ⟨w, log'⟩ even
    obtain ⟨answer, v', w', left, right, paired⟩ := (World.Paired.hides ss ts).check call c v w even.paired
    exact .inl ⟨answer, _, _, Engine.observed_check (call.host audience) v log answer left,
      Engine.observed_check (call.host audience) w log' answer right, even.more paired rfl⟩

theorem invoke_even (twins : List.Forall₂ Step.Twin ss ts) (id : String) (literal supplied : Value) (place : List Int) :
    AgreeUnless (Strays ss ts call) (Even ss ts call) ((call.host audience).observed.invoke id literal supplied place)
      ((call.host audience).observed.invoke id literal supplied place) where
  lasts := by
    rintro ⟨v, log⟩ strays
    obtain ⟨answer, v', found⟩ := Engine.exists_answered ((call.host audience).invoke id literal supplied place v)
    exact ⟨answer, _, Engine.observed_invoke (call.host audience) v log answer found, strays.more⟩
  agrees := by
    rintro ⟨v, log⟩ ⟨w, log'⟩ even
    obtain ⟨answer, v', found⟩ := Engine.exists_answered ((call.host audience).invoke id literal supplied place v)
    have left := Engine.observed_invoke (call.host audience) v log answer found
    by_cases fits : call.Fits ss ts (.invoked id literal supplied place v answer v')
    · obtain ⟨_, _, w', same, right, paired⟩ := invoke_paired twins even.paired fits
      obtain ⟨rfl, rfl⟩ := answered_inj (found.symm.trans same)
      exact .inl ⟨answer, _, _, left, Engine.observed_invoke (call.host audience) w log' answer right, even.more paired rfl⟩
    · exact .inr ⟨answer, _, left, .invoked id literal supplied place v answer v', by simp, fits⟩

theorem emit_even (overlooks : audience.Overlooks ss ts) (event : Event) (view : View) :
    AgreeUnless (Strays ss ts call) (Even ss ts call) ((call.host audience).observed.emit event view)
      ((call.host audience).observed.emit event view) where
  lasts := by
    rintro ⟨v, log⟩ strays
    cases told : (call.host audience).emit event view v with
    | ok _ v' => exact ⟨.ok (), _, Engine.observed_told (call.host audience) v log told, strays.more⟩
    | error fault v' => exact ⟨.error fault, _, Engine.observed_missed (call.host audience) v log told, strays.more⟩
  agrees := by
    rintro ⟨v, log⟩ ⟨w, log'⟩ even
    exact .inl (emit_paired overlooks call event view even)

/-- Two traversals of a call come to the same if each step that is invoked in the first fits its counterpart. -/
theorem run_even (overlooks : audience.Overlooks ss ts) (twins : List.Forall₂ Step.Twin ss ts) (call : Call)
    (paired : World.Paired ss ts v w) (level : Level) (items : Schema) (position : List Int) (input : Value) (fuel : Nat)
    (fits : ∀ d ∈ deedsOf (Engine.moments (call.host audience) fuel level items position input v), call.Fits ss ts d) :
    ∃ answer v' w', Engine.run (call.host audience) fuel level items position input v = answered answer v' ∧
      Engine.run (call.host audience) fuel level items position input w = answered answer w' ∧
      Even ss ts call (v', Engine.moments (call.host audience) fuel level items position input v)
        (w', Engine.moments (call.host audience) fuel level items position input w) := by
  have hosts : HostsAgreeUnless (Strays ss ts call) (Even ss ts call) (call.host audience).observed
      (call.host audience).observed := ⟨check_even, invoke_even twins, emit_even overlooks⟩
  obtain ⟨a, v', ran, observed, -, -⟩ := Engine.run_observed (call.host audience) fuel level items position input v
  obtain ⟨b, w', ran', observed', -, -⟩ := Engine.run_observed (call.host audience) fuel level items position input w
  obtain ⟨answer, _, _, left, right, even⟩ | ⟨answer, _, left, d, done, strays⟩ :=
    (Engine.run_agree_unless hosts fuel level items position input).agrees (v, []) (w, []) ⟨paired, rfl⟩
  · obtain ⟨rfl, rfl⟩ := answered_inj (observed.symm.trans left)
    obtain ⟨rfl, rfl⟩ := answered_inj (observed'.symm.trans right)
    exact ⟨_, v', w', ran, ran', even⟩
  · obtain ⟨rfl, rfl⟩ := answered_inj (observed.symm.trans left)
    exact absurd (fits d done) strays

end Call

/-- Each step that a call invokes fits its counterpart. -/
def Request.Fits (ss ts : List Step) (audience : Audience) (input : Value) (fuel : Nat) (r : Request) (w : World) : Prop :=
  ∀ b w₁, r.opening w = .ok b w₁ → ∀ d ∈ deedsOf (r.moments audience input fuel w), b.call.Fits ss ts d

/-- What a caller gets to know of a call that he made: what it came to, the values that it left, and what it told of. The
result of the call, its position and the way in which it can go on are made of these. -/
structure Account where
  answer : Except Fault Execution
  heap : Heap
  told : List Announcement

/-- What a caller does: he makes a call, or he changes values, such as a context. -/
inductive Move where
  | call (r : Request) (reads : r.Reads) (input : Value) (fuel : Nat)
  | edit (change : Act Unit)

def Engine.answerOf {ε σ α : Type} : EStateM.Result ε σ α → Except ε α
  | .ok a _ => .ok a
  | .error fault _ => .error fault

def Request.account (audience : Audience) (input : Value) (fuel : Nat) (r : Request) (w : World) : Account where
  answer := Engine.answerOf (r.perform audience input fuel w)
  heap := (leftBy (r.perform audience input fuel w)).heap
  told := r.announcements audience input fuel w

namespace Move

def make (audience : Audience) : Move → List Account × World → List Account × World
  | .call r _ input fuel, (accounts, w) =>
    (accounts ++ [r.account audience input fuel w], leftBy (r.perform audience input fuel w))
  | .edit change, (accounts, w) => (accounts, leftBy (Job.act change w))

/-- Each step that a call invokes fits its counterpart, if the move is a call. -/
def Fits (ss ts : List Step) (audience : Audience) : Move → World → Prop
  | .call r _ input fuel, w => r.Fits ss ts audience input fuel w
  | .edit _, _ => True

end Move

/-- A caller decides on each of his moves by what he knows of his calls. -/
abbrev Caller := (turn : Nat) → List Account → Move

/-- What a caller knows after some moves, and the world that he has to do with. -/
def Caller.play (caller : Caller) (audience : Audience) (w : World) : (moves : Nat) → List Account × World
  | 0 => ([], w)
  | moves + 1 => (caller moves (caller.play audience w moves).1).make audience (caller.play audience w moves)

/-- Each step that is invoked in the calls of a caller fits its counterpart. -/
def Caller.Fits (ss ts : List Step) (audience : Audience) (w : World) (moves : Nat) (caller : Caller) : Prop :=
  ∀ turn < moves, (caller turn (caller.play audience w turn).1).Fits ss ts audience (caller.play audience w turn).2

theorem Caller.fits_raises {ss ts : List Step} (raises : List.Forall₂ Step.Raises ss ts) (audience : Audience) (w : World)
    (moves : Nat) (caller : Caller) : caller.Fits ss ts audience w moves := by
  intro turn _
  cases caller turn (caller.play audience w turn).1 with
  | edit change => trivial
  | call r reads input fuel => exact fun b _ _ d _ => b.call.fits_raises raises d

section
variable {audience : Audience} {ss ts : List Step} (overlooks : audience.Overlooks ss ts)
  (twins : List.Forall₂ Step.Twin ss ts) {v w : World}
include overlooks twins

theorem Request.perform_paired {r : Request} (reads : r.Reads) (input : Value) (fuel : Nat) (paired : World.Paired ss ts v w)
    (fits : r.Fits ss ts audience input fuel v) : ∃ answer v' w', r.perform audience input fuel v = answered answer v' ∧
      r.perform audience input fuel w = answered answer w' ∧ World.Paired ss ts v' w' ∧
      r.announcements audience input fuel v = r.announcements audience input fuel w := by
  obtain ⟨begun, v₁, w₁, left, right, paired₁⟩ := (World.Paired.hides ss ts).opening reads v w paired
  cases begun with
  | error fault =>
    refine ⟨.error fault, v₁, w₁, ?_, ?_, paired₁, ?_⟩
    · rw [perform_eq]
      exact Engine.Work.error_bind left
    · rw [perform_eq]
      exact Engine.Work.error_bind right
    · simp only [announcements, left, right, Engine.answered_error]
  | ok b =>
    have fits : ∀ d ∈ deedsOf (Engine.moments (b.call.host audience) fuel r.level b.items b.position input v₁),
        b.call.Fits ss ts d := by
      have moments : r.moments audience input fuel v =
          Engine.moments (b.call.host audience) fuel r.level b.items b.position input v₁ := by
        rw [Request.moments, left, Engine.answered_ok]
      rw [← moments]
      exact fits b v₁ left
    obtain ⟨answer, v', w', ran, ran', even⟩ :=
      Call.run_even overlooks twins b.call paired₁ r.level b.items b.position input fuel fits
    refine ⟨answer.map (Execution.mk b.call), v', w', ?_, ?_, even.paired, ?_⟩
    · rw [perform_eq, Engine.Work.ok_bind left]
      exact Executor.run_answered ran
    · rw [perform_eq, Engine.Work.ok_bind right]
      exact Executor.run_answered ran'
    · simp only [announcements, moments, left, right, Engine.answered_ok]
      exact even.same

theorem Move.make_paired (m : Move) {p q : List Account × World} (same : p.1 = q.1) (paired : World.Paired ss ts p.2 q.2)
    (fits : m.Fits ss ts audience p.2) :
    (m.make audience p).1 = (m.make audience q).1 ∧ World.Paired ss ts (m.make audience p).2 (m.make audience q).2 := by
  obtain ⟨accounts, v⟩ := p
  obtain ⟨_, w⟩ := q
  obtain rfl : accounts = _ := same
  cases m with
  | call r reads input fuel =>
    obtain ⟨answer, v', w', left, right, paired', told⟩ := r.perform_paired overlooks twins reads input fuel paired fits
    have account : r.account audience input fuel v = r.account audience input fuel w := by
      simp only [Request.account, left, right, told]
      cases answer <;> simp only [Engine.answered_ok, Engine.answered_error, leftBy, Engine.answerOf, paired'.heap]
    refine ⟨by simp only [make, account], ?_⟩
    simp only [make, left, right]
    cases answer <;> exact paired'
  | edit change =>
    refine ⟨rfl, ?_⟩
    obtain ⟨answer, v', w', left, right, paired'⟩ := (World.Paired.hides ss ts).act change v w paired
    simp only [make, left, right]
    cases answer <;> exact paired'

/-- Returning a failure that can be retried and raising it cannot be told apart by anybody who makes calls: whatever he
does, in view of what he was answered before, each of his calls comes to the same, leaves the same values and tells of
the same. -/
theorem Caller.raising_makes_no_difference (caller : Caller) (paired : World.Paired ss ts v w) (moves : Nat)
    (fits : caller.Fits ss ts audience v moves) :
    (caller.play audience v moves).1 = (caller.play audience w moves).1 ∧
      World.Paired ss ts (caller.play audience v moves).2 (caller.play audience w moves).2 := by
  induction moves with
  | zero => exact ⟨rfl, paired⟩
  | succ moves ih =>
    obtain ⟨same, paired⟩ := ih (fun turn early => fits turn (Nat.lt_succ_of_lt early))
    have fits := fits moves (Nat.lt_succ_self moves)
    rw [play, play, ← same]
    exact (caller moves _).make_paired overlooks twins same paired fits

end

namespace Script

/-- The call of a name with another one. -/
def Expr.ofNames (f arg : String) : Expr := .call (.name f) [.name arg] []

def Expr.isOfNames (f arg : String) : Expr → Bool
  | .call (.name g) [.name a] [] => g == f && a == arg
  | _ => false

theorem Expr.eq_ofNames {f arg : String} {e : Expr} (same : e.isOfNames f arg = true) : e = ofNames f arg := by
  unfold isOfNames at same
  split at same
  · rw [Bool.and_eq_true, beq_iff_eq, beq_iff_eq] at same
    obtain ⟨rfl, rfl⟩ := same
    rfl
  · cases same

/-- A source is the call of a name with another one. -/
def isReturning (f arg : String) : Except CompileFault Program → Bool
  | .ok (.expression e) => e.isOfNames f arg
  | _ => false

/-- A source raises the call of a name with another one. -/
def isRaising (f arg : String) : Except CompileFault Program → Bool
  | .ok (.block [.raise (some e) none]) => e.isOfNames f arg
  | _ => false

theorem compile_returning :
    compile "StepRetriableError(ctx)" = .ok (.expression (.ofNames "StepRetriableError" "ctx")) := by
  have parsed : isReturning "StepRetriableError" "ctx" (compile "StepRetriableError(ctx)") = true := by decide +kernel
  unfold isReturning at parsed
  split at parsed
  · next e found => rw [found, Expr.eq_ofNames parsed]
  · cases parsed

theorem compile_raising :
    compile "raise StepRetriableError(ctx)" = .ok (.block [.raise (some (.ofNames "StepRetriableError" "ctx")) none]) := by
  have parsed : isRaising "StepRetriableError" "ctx" (compile "raise StepRetriableError(ctx)") = true := by decide +kernel
  unfold isRaising at parsed
  split at parsed
  · next e found => rw [found, Expr.eq_ofNames parsed]
  · cases parsed

variable {fuel calls : Nat} {scope : Addr} {h : Heap} {f : Frame} {v : Value}

theorem eval_name {name : String} (framed : h.object scope = .frame f) (outermost : f.kind = .module)
    (bound : f.get? name = some v) : (machine .standard (fuel + 1) calls).eval scope (.name name) h = .ok v h := by
  have frame : Act.frame scope h = .ok f h := by
    simp only [Act.frame, Act.object, Bind.bind, EStateM.bind, framed]
    rfl
  show Act.lookupFrom name (299 + 1) false scope h = .ok v h
  rw [Act.lookupFrom, Engine.Work.ok_bind frame, outermost, bound]
  rfl

theorem eval_retriable (framed : h.object scope = .frame f) (outermost : f.kind = .module)
    (bound : f.get? "StepRetriableError" = some (.type (.error .retriable))) (given : f.get? "ctx" = some v) :
    (machine .standard (fuel + 2) calls).eval scope (.ofNames "StepRetriableError" "ctx") h = makeRetriable ⟨[v], []⟩ h := by
  have called : (machine .standard (fuel + 1) calls).eval scope _ h = _ := eval_name framed outermost bound
  have argument : (machine .standard (fuel + 1) calls).eval scope _ h = _ := eval_name framed outermost given
  show evalWith (machine .standard (fuel + 1) calls) scope (.ofNames "StepRetriableError" "ctx") h = _
  simp only [Expr.ofNames, evalWith]
  rw [Engine.Work.ok_bind called]
  simp only [evalRow, bind_assoc]
  rw [Engine.Work.ok_bind argument]
  rfl

/-- A failure that is made is an object of its own, unless the error that it is about cannot be written. -/
theorem makeRetriable_eq (v : Value) (h : Heap) :
    (∃ stop h', makeRetriable ⟨[v], []⟩ h = .error stop h') ∨ ∃ (h' : Heap) (message : List Value) (fields : Fields),
      makeRetriable ⟨[v], []⟩ h = .ok (.ref h'.objects.size) (h'.alloc (.error .retriable message fields)).2 := by
  have made : makeRetriable ⟨[v], []⟩ = (do
      let message ← Act.plain v
      Act.allocate (.error .retriable [.str message] (retriableNames.zip [v, .nothing, .nothing, .nothing]).toArray)) := rfl
  cases written : Act.plain v h with
  | error stop h' => exact .inl ⟨stop, h', by simp only [made, Bind.bind, EStateM.bind, written]⟩
  | ok text h' => exact .inr ⟨h', _, _, by rw [made, Engine.Work.ok_bind written]; rfl⟩

/-- What a statement raises that is all of a block. -/
theorem exec_raise {fuel calls : Nat} {scope : Addr} {e : Expr} {h h' : Heap} {stop : Stop}
    (raised : execRaise (machine .standard fuel calls) scope (some e) none h = .error stop h') :
    (machine .standard (fuel + 1) calls).exec scope [.raise (some e) none] h = .error stop h' := by
  show execAll (machine .standard fuel calls) scope [.raise (some e) none] h = _
  simp only [execAll, execOne, Bind.bind, EStateM.bind, raised]

theorem execRaise_fails {m : Machine} {scope : Addr} {e : Expr} {h h' : Heap} {stop : Stop}
    (failed : m.eval scope e h = .error stop h') : execRaise m scope (some e) none h = .error stop h' := by
  simp only [execRaise, Bind.bind, EStateM.bind, failed]

theorem execRaise_error {m : Machine} {scope a : Addr} {e : Expr} {h h' : Heap} (made : m.eval scope e h = .ok (.ref a) h')
    (error : isError h' (.ref a) = true) : execRaise m scope (some e) none h = .error (.raised (.ref a)) h' := by
  have unexplained : evalOption m scope none h' = .ok .nothing h' := rfl
  have itself : errorOf m "exceptions must derive from BaseException" (.ref a) h' = .ok (.ref a) h' := by
    simp only [errorOf, Bind.bind, EStateM.bind, get_result, error, if_true]
    rfl
  rw [execRaise, Engine.Work.ok_bind made, Engine.Work.ok_bind unexplained, Engine.Work.ok_bind itself]
  rfl

/-- A source that returns a failure and one that raises it come to the same failure, or fail alike in making it. -/
theorem evaluate_failure {builtins : List (String × Value)} {b : Entries} (h : Heap)
    (bound : (namesOf b).find? (·.1 == "StepRetriableError") = some ("StepRetriableError", .type (.error .retriable)))
    (given : (namesOf b).find? (·.1 == "ctx") = some ("ctx", v)) :
    Step.Matches ((evaluate builtins (.expression (.ofNames "StepRetriableError" "ctx")) b >>= awaited) h)
      ((evaluate builtins (.block [.raise (some (.ofNames "StepRetriableError" "ctx")) none]) b >>= awaited) h) := by
  let f : Frame := { kind := .module, values := namesOf b, builtins }
  have framed : (h.alloc (.frame f)).2.object h.objects.size = .frame f := Heap.object_of_getElem? (h.alloc_found _)
  have bound : f.get? "StepRetriableError" = some (.type (.error .retriable)) := congrArg (Option.map Prod.snd) bound
  have given : f.get? "ctx" = some v := congrArg (Option.map Prod.snd) given
  -- the statement evaluates the expression with less fuel
  have returned : (machine .standard (999999998 + 2) callLimit).eval _ _ _ = _ := eval_retriable framed rfl bound given
  have inside : (machine .standard (999999997 + 2) callLimit).eval _ _ _ = _ := eval_retriable framed rfl bound given
  have raises {stop : Stop} {h' : Heap} (raised : execRaise (machine .standard 999999999 callLimit) h.objects.size
      (some (.ofNames "StepRetriableError" "ctx")) none (h.alloc (.frame f)).2 = .error stop h') :
      (evaluate builtins (.block [.raise (some (.ofNames "StepRetriableError" "ctx")) none]) b >>= awaited) h =
        .error stop h' :=
    Engine.Work.error_bind ((Engine.Work.ok_bind rfl).trans (Engine.Work.error_bind (exec_raise raised)))
  obtain ⟨stop, h', made⟩ | ⟨h', message, fields, made⟩ := makeRetriable_eq v (h.alloc (.frame f)).2
  · have returned : evaluate builtins (.expression (.ofNames "StepRetriableError" "ctx")) b h = .error stop h' :=
      returned.trans made
    rw [raises (execRaise_fails (inside.trans made)), Engine.Work.error_bind returned]
    exact .failed
  · have returned : evaluate builtins (.expression (.ofNames "StepRetriableError" "ctx")) b h = .ok _ _ := returned.trans made
    have error : (h'.alloc (.error .retriable message fields)).2.object h'.objects.size = .error .retriable message fields :=
      Heap.object_of_getElem? (h'.alloc_found _)
    have ready : awaited (.ref h'.objects.size) (h'.alloc (.error .retriable message fields)).2 =
        .ok (.ref h'.objects.size) (h'.alloc (.error .retriable message fields)).2 := by
      simp only [awaited, await, Act.object, Bind.bind, EStateM.bind, error]
      rfl
    rw [raises (execRaise_error (inside.trans made) (by simp only [isError, error])), Engine.Work.ok_bind returned, ready]
    apply Step.Matches.raised
    simp only [Job.isRetriable, Value.classOf, error]
    rfl

end Script

namespace Step

def returning : Step := { id := "fail", handler := .source "StepRetriableError(ctx)" }

def raising : Step := { id := "fail", handler := .source "raise StepRetriableError(ctx)" }

theorem namesOf_bindings (s : Step) (plain : s.globals = #[]) (context input : Value) :
    Script.namesOf (s.bindings context input) = Script.outcomeClasses ++ [("ctx", context), ("input", input)] := by
  rw [bindings, plain]
  with_unfolding_all rfl

theorem returning_raises : returning.Raises raising where
  id := rfl
  input := rfl
  handlers builtins context input h := by
    refine ⟨_, _, .source rfl Script.compile_returning, .source rfl Script.compile_raising, ?_⟩
    apply Script.evaluate_failure (v := context) h
    · rw [namesOf_bindings returning rfl]
      rfl
    · rw [namesOf_bindings returning rfl]
      rfl

end Step

/-- The loop around a step that always fails, with a step of some kind. -/
def World.failingBy (s : Step) : World := { World.failing with registry := { World.failing.registry with steps := [s] } }

theorem World.failingBy_paired (s t : Step) : World.Paired [s] [t] (failingBy s) (failingBy t) where
  heap := rfl
  schemas := rfl
  left := rfl
  right := rfl
  listeners := rfl
  files := rfl
  problems := rfl
  builtins := rfl
  honest := nofun
  honest' := nofun

/-- The way in which a call can go on. -/
def Account.offer? (a : Account) : Option Offer :=
  match a.answer with
  | .ok e => e.offer?
  | .error _ => none

/-- A caller who goes on with his last call as long as he can. -/
def Caller.persistent : Caller := fun _ accounts =>
  match accounts.getLast? with
  | some ⟨.ok e, _, _⟩ => .call (.goOn e) trivial .nothing 2
  | _ => .call (.start .failing) trivial .nothing 2

/-- He is offered to retry each time, whether the step returns its failure or raises it. -/
theorem Caller.persistent_retries : ∃ accounts : List Account,
    (persistent.play .silent (.failingBy .returning) 3).1 = accounts ∧
    (persistent.play .silent (.failingBy .raising) 3).1 = accounts ∧
    accounts.map Account.offer? = [some .retry, some .retry, some .retry] := by
  have raises : List.Forall₂ Step.Raises [.returning] [.raising] := .cons Step.returning_raises .nil
  have even := raising_makes_no_difference (Audience.silent_observes.overlooks _ _)
    (.cons Step.returning_raises.toTwin .nil) persistent (World.failingBy_paired _ _) 3 (fits_raises raises _ _ _ _)
  exact ⟨_, rfl, even.1.symm, by decide +kernel⟩

end Workflow
