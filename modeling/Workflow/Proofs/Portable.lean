import Mathlib.Data.List.Forall2
import Workflow.Proofs.Raising
import Workflow.Proofs.Registered
import Workflow.Proofs.Relocations

/-! Steps and conditions that come to the same wherever their objects lie. A call in which all of them do comes to the same
in two worlds with the same schemas and steps at different addresses. -/

namespace Workflow
open Script (Act Entries Heap Renaming Value)
open Engine (Halt Outcome)

/-! What is registered, at other addresses. -/

inductive Handler.Sent (f : Renaming) : Handler → Handler → Prop where
  | source (text : String) : Sent f (.source text) (.source text)
  | call {v v'} (sends : f.Sends v v') : Sent f (.call v) (.call v')

structure Step.Sent (f : Renaming) (s s' : Step) : Prop where
  id : s'.id = s.id
  handler : Handler.Sent f s.handler s'.handler
  input : f.Sends s.input s'.input
  globals : s.globals.CoveredBy f ∧ s'.globals = Entries.rename s.globals f.map

structure RegisteredSchema.Sent (f : Renaming) (s s' : RegisteredSchema) : Prop where
  id : f.Sends s.id s'.id
  items : Items.Sent f s.items s'.items

structure Registry.Sent (f : Renaming) (r r' : Registry) : Prop where
  steps : List.Forall₂ (Step.Sent f) r.steps r'.steps
  schemas : List.Forall₂ (RegisteredSchema.Sent f) r.schemas r'.schemas

section
variable {f g : Renaming} (within : f.Within g)
include within

theorem Handler.Sent.mono {k k' : Handler} (sent : Handler.Sent f k k') : Handler.Sent g k k' := by
  cases sent with
  | source text => exact .source text
  | call sends => exact .call (sends.mono within)

theorem Step.Sent.mono {s s' : Step} (sent : Step.Sent f s s') : Step.Sent g s s' where
  id := sent.id
  handler := sent.handler.mono within
  input := sent.input.mono within
  globals := ⟨sent.globals.1.mono within, by rw [sent.globals.2, sent.globals.1.rename within]⟩

theorem Registry.Sent.mono {r r' : Registry} (sent : Registry.Sent f r r') :
    Registry.Sent g r r' where
  steps := sent.steps.imp (fun _ _ step => step.mono within)
  schemas := sent.schemas.imp (fun _ _ schema => ⟨schema.id.mono within, schema.items.mono within⟩)

end

/-- What is found among some things corresponds to what is found among others, if the tests answer alike. -/
theorem find?_forall₂ {like : α → β → Prop} {p : α → Bool} {q : β → Bool} {items : List α} {others : List β}
    (all : List.Forall₂ like items others) (same : ∀ a b, like a b → q b = p a) :
    (items.find? p = none ∧ others.find? q = none) ∨
      ∃ a b, items.find? p = some a ∧ others.find? q = some b ∧ like a b := by
  induction all with
  | nil => exact .inl ⟨rfl, rfl⟩
  | @cons a b items others first rest ih =>
    have answer := same a b first
    cases passed : p a with
    | true => exact .inr ⟨a, b, by simp [passed], by simp [answer, passed], first⟩
    | false => simpa [List.find?_cons, passed, answer] using ih

section
variable {f : Renaming} {r r' : Registry} (sent : Registry.Sent f r r')
include sent

theorem Registry.Sent.step? (id : String) :
    (r.step? id = none ∧ r'.step? id = none) ∨
      ∃ s s', r.step? id = some s ∧ r'.step? id = some s' ∧ Step.Sent f s s' :=
  find?_forall₂ sent.steps (fun _ _ step => by rw [step.id])

theorem Registry.Sent.schema? {id id' : Value} (sends : f.Sends id id') :
    (r.schema? id = none ∧ r'.schema? id' = none) ∨
      ∃ s s', r.schema? id = some s ∧ r'.schema? id' = some s' ∧ RegisteredSchema.Sent f s s' := by
  refine find?_forall₂ sent.schemas (fun s s' schema => ?_)
  obtain ⟨⟨covers, same⟩, -⟩ := schema
  obtain ⟨covers', rfl⟩ := sends
  rw [same]
  exact Value.sameKey_rename covers covers'

end

/-! What a condition or a step evaluates. -/

/-- What a source comes to, bound as an act tells, if it compiles. -/
def Script.evaluation (source : String) (bindings : Act Entries) : Act Value :=
  match Script.compile source with
  | .ok program => do Script.awaited (← Script.evaluate Script.standardBuiltins program (← bindings))
  | .error _ => throw .exhausted

def Condition.evaluation (context : Value) : Condition → Act Value
  | .source text => Script.evaluation text (Script.contextBindings context)
  | .call f => do Script.awaited (← Script.callValue f [context])

def Step.evaluation (s : Step) (context input : Value) : Act Value :=
  match s.handler with
  | .source text => Script.evaluation text (pure (s.bindings context input))
  | .call f => do Script.awaited (← Script.callValue f [context, input])

/-- A condition comes to the same in every heap that holds the objects of a heap at other addresses. -/
def Condition.Portable (h : Heap) (context : Value) (c : Condition) : Prop :=
  ∀ f d context' h', Condition.Sent f c d → f.Sends context context' → h.Renamed f h' →
    Carried Heap.Renamed Script.Stop.Sent f Renaming.Sends (c.evaluation context h) (d.evaluation context' h')

/-- A step comes to the same in every heap that holds the objects of a heap at other addresses. -/
def Step.Portable (h : Heap) (context input : Value) (s : Step) : Prop :=
  ∀ f s' context' input' h', Step.Sent f s s' → f.Sends context context' → f.Sends input input' → h.Renamed f h' →
    Carried Heap.Renamed Script.Stop.Sent f Renaming.Sends (s.evaluation context input h) (s'.evaluation context' input' h')

/-! Evaluators. -/

namespace Script

/-- An evaluator with the usual builtins, which remembers what its sources compile to. -/
structure Evaluator.Sound (e : Evaluator) : Prop where
  builtins : e.builtins = standardBuiltins
  honest : e.Honest

theorem Evaluator.Sound.compile {e : Evaluator} (sound : e.Sound) {source : String} {found : Evaluator.Outcome}
    (made : e.compile source = .ok found) : found.evaluator.Sound :=
  ⟨(compile_builtins made).trans sound.builtins, (sound.honest.compile made).1⟩

end Script

/-! Worlds. -/

/-- A world has the registry of another one at other addresses. -/
structure World.Renamed (f : Renaming) (v w : World) : Prop where
  heap : v.heap.Renamed f w.heap
  registry : Registry.Sent f v.registry w.registry
  evaluators : v.evaluator.Sound ∧ w.evaluator.Sound

/-- What is told of a call makes new values at most. -/
structure World.Adds (w w' : World) : Prop where
  heap : w.heap.Grows w'.heap
  registry : w'.registry = w.registry
  evaluator : w.evaluator.Sound → w'.evaluator.Sound

theorem World.Adds.tolerant : Tolerant Heap.Grows World.Adds where
  refl w := ⟨Heap.Grows.lasting.refl w.heap, rfl, id⟩
  trans first second := ⟨Heap.Grows.lasting.trans first.heap second.heap, second.registry.trans first.registry,
    fun sound => second.evaluator (first.evaluator sound)⟩
  heap _ _ grows := ⟨grows, rfl, id⟩
  compiled w _ _ made := ⟨Heap.Grows.lasting.refl w.heap, rfl, fun sound => sound.compile made⟩
  logged w _ := ⟨Heap.Grows.lasting.refl w.heap, rfl, id⟩

namespace World.Renamed
variable {f g : Renaming} {v v' w w' : World} (renamed : World.Renamed f v w)
include renamed

theorem acted (within : f.Within g) {h h' : Heap} (heap : h.Renamed g h') :
    World.Renamed g { v with heap := h } { w with heap := h' } :=
  ⟨heap, renamed.registry.mono within, renamed.evaluators⟩

theorem left (adds : World.Adds v v') : World.Renamed f v' w where
  heap := renamed.heap.left adds.heap
  registry := by rw [adds.registry]; exact renamed.registry
  evaluators := ⟨adds.evaluator renamed.evaluators.1, renamed.evaluators.2⟩

theorem right (adds : World.Adds w w') : World.Renamed f v w' where
  heap := renamed.heap.right adds.heap
  registry := by rw [adds.registry]; exact renamed.registry
  evaluators := ⟨renamed.evaluators.1, adds.evaluator renamed.evaluators.2⟩

end World.Renamed

/-! Jobs. -/

/-- Acts one after the other are one act. -/
theorem Job.act_bind (a : Act α) (k : α → Act β) : (Job.act a >>= fun v => Job.act (k v)) = Job.act (a >>= k) := by
  funext w
  simp only [Job.act, Bind.bind, EStateM.bind]
  cases a w.heap <;> rfl

namespace Job
variable {w : World} (sound : w.evaluator.Sound)
include sound

/-- Compiling a source changes neither the heap nor what is registered. -/
theorem compile_sound (source : String) : ∃ w', w'.evaluator.Sound ∧ w'.heap = w.heap ∧ w'.registry = w.registry ∧
    w'.problems = w.problems ∧ Job.compile source w = Engine.answered ((Script.compile source).mapError (refusal source)) w' := by
  obtain ⟨evaluator, journal, honest, builtins, ran⟩ := Job.compile_honest sound.honest source
  exact ⟨{ w with evaluator, journal }, ⟨builtins.trans sound.builtins, honest⟩, rfl, rfl, rfl, ran⟩

theorem evaluate_eq (context : Act Entries) (program : Script.Program) :
    (Job.act context >>= fun b => Job.evaluate program b >>= fun v => Job.act (Script.awaited v)) w =
      Job.act (context >>= fun b => Script.evaluate Script.standardBuiltins program b >>= Script.awaited) w := by
  simp only [Job.act, Job.evaluate, Bind.bind, EStateM.bind, Script.get_result]
  cases context w.heap with
  | error stop h => rfl
  | ok b h =>
    simp only [sound.builtins]
    cases Script.evaluate Script.standardBuiltins program b h with
    | error stop h => rfl
    | ok v h => rfl

end Job

namespace Job
variable {job : Job α} {w w' : World}

theorem orRetriable_of_ok {a : α} (ran : job w = .ok a w') : Job.orRetriable job w = .ok (.ok a) w' := by
  simp only [Job.orRetriable, ran]

theorem orRetriable_of_raised {e : Value} (ran : job w = .error (.stopped (.raised e)) w') :
    Job.orRetriable job w =
      if Job.isRetriable w' e then .ok (.error e) w' else .error (.stopped (.raised e)) w' := by
  simp only [Job.orRetriable, ran]

theorem orRetriable_of_other {fault : Fault} (ran : job w = .error fault w') (other : ∀ e, fault ≠ .stopped (.raised e)) :
    Job.orRetriable job w = .error fault w' := by
  simp only [Job.orRetriable, ran]

end Job

/-- What acts come to alike, the jobs that are those acts come to alike. -/
theorem Carried.job {R : Renaming → Heap → Heap → Prop} {S : Renaming → World → World → Prop} {f : Renaming}
    {like : Renaming → α → β → Prop} {a : Act α} {b : Act β} {v w : World}
    (done : Carried R Script.Stop.Sent f like (a v.heap) (b w.heap))
    (world : ∀ g h h', f.Within g → R g h h' → S g { v with heap := h } { w with heap := h' }) :
    Carried S Fault.Sent f like (Job.act a v) (Job.act b w) := by
  simp only [Job.act]
  generalize a v.heap = x, b w.heap = y at done
  cases done with
  | ok within values heaps => exact .ok within values (world _ _ _ within heaps)
  | error within misses heaps =>
    refine .error within ?_ (world _ _ _ within heaps)
    cases misses with
    | raised sends => exact .raised sends
    | exhausted => exact .other (fun _ => by simp) (fun _ => by simp)

/-- Two jobs do the same, at other addresses. -/
abbrev Job.Matches (f : Renaming) (like : Renaming → α → β → Prop) (x : Job α) (y : Job β) : Prop :=
  Akin World.Renamed Fault.Sent f like x y

namespace Job.Matches
variable {f g : Renaming} {like : Renaming → α → β → Prop}

theorem acted {a : Act α} {b : Act β} {v w : World} (renamed : World.Renamed f v w)
    (done : Carried Heap.Renamed Script.Stop.Sent f like (a v.heap) (b w.heap)) :
    Carried World.Renamed Fault.Sent f like (Job.act a v) (Job.act b w) :=
  done.job (fun _ _ _ within heaps => renamed.acted within heaps)

theorem act {a : Act α} {b : Act β} (same : Act.Matches f like a b) : Matches f like (Job.act a) (Job.act b) :=
  fun v w renamed => acted renamed (same v.heap w.heap renamed.heap)

/-- What always comes to something, and makes new values at most. -/
theorem added {x y : Job Unit} (left : ∀ v, ∃ v', x v = .ok () v' ∧ World.Adds v v')
    (right : ∀ w, ∃ w', y w = .ok () w' ∧ World.Adds w w') : Matches f Whatever x y := by
  intro v w renamed
  obtain ⟨v', ran, adds⟩ := left v
  obtain ⟨w', ran', adds'⟩ := right w
  rw [ran, ran']
  exact .ok (.refl f) trivial ((renamed.left adds).right adds')

theorem log (level level' : LogLevel) (logger logger' message message' : String) :
    Matches f Whatever (Job.log level logger message) (Job.log level' logger' message') :=
  added (fun v => ⟨_, rfl, World.Adds.tolerant.logged v _⟩) (fun w => ⟨_, rfl, World.Adds.tolerant.logged w _⟩)

theorem shown {v v' : Value} (sends : f.Sends v v') : Matches f Whatever (Job.shown v) (Job.shown v') := act (.plain sends)

theorem fail {fault fault' : Fault} (other : ∀ e, fault ≠ .stopped (.raised e)) (other' : ∀ e, fault' ≠ .stopped (.raised e)) :
    Matches f like (Job.fail fault) (Job.fail fault') := .throw (.other other other')

theorem step (id : String) : Matches f Step.Sent (Executor.step id) (Executor.step id) := by
  intro v w renamed
  simp only [Executor.step, Bind.bind, EStateM.bind, Script.get_result]
  obtain ⟨none, none'⟩ | ⟨s, s', found, found', sent⟩ := renamed.registry.step? id
  · rw [none, none']
    exact fail (fun _ => by simp) (fun _ => by simp) v w renamed
  · rw [found, found']
    exact .ok (.refl f) sent renamed

theorem schema (id : String) :
    Matches f RegisteredSchema.Sent (Executor.schema (.str id)) (Executor.schema (.str id)) := by
  intro v w renamed
  have sends : f.Sends (.str id) (.str id) := Value.isBare.sends (v := .str id) rfl f
  obtain ⟨none, none'⟩ | ⟨s, s', found, found', sent⟩ := renamed.registry.schema? sends
  · rw [Executor.schema_missing none, Executor.schema_missing none']
    exact .error (.refl f) (.other (fun _ => by simp) (fun _ => by simp)) renamed
  · rw [Executor.schema_registered found, Executor.schema_registered found']
    exact .ok (.refl f) sent renamed

/-! Conditions and steps. -/

/-- A refusal of a source is no error of a script. -/
theorem refusal_other (source : String) (fault : Script.CompileFault) (e : Value) :
    Job.refusal source fault ≠ .stopped (.raised e) := by
  cases fault <;> simp [Job.refusal]

/-- An evaluation of a source comes to the same if its program does. -/
theorem evaluated {source : String} {bindings bindings' : Act Entries} {v w : World} (renamed : World.Renamed f v w)
    (done : Carried Heap.Renamed Script.Stop.Sent f Renaming.Sends (Script.evaluation source bindings v.heap)
      (Script.evaluation source bindings' w.heap)) :
    Carried World.Renamed Fault.Sent f Renaming.Sends
      ((Job.compile source >>= fun program => Job.act bindings >>= fun b => Job.evaluate program b >>= fun u =>
        Job.act (Script.awaited u)) v)
      ((Job.compile source >>= fun program => Job.act bindings' >>= fun b => Job.evaluate program b >>= fun u =>
        Job.act (Script.awaited u)) w) := by
  obtain ⟨v', sound, heap, registry, -, ran⟩ := compile_sound renamed.evaluators.1 source
  obtain ⟨w', sound', heap', registry', -, ran'⟩ := compile_sound renamed.evaluators.2 source
  have after : World.Renamed f v' w' := by
    refine ⟨?_, ?_, sound, sound'⟩
    · rw [heap, heap']
      exact renamed.heap
    · rw [registry, registry']
      exact renamed.registry
  cases made : Script.compile source with
  | ok program =>
    rw [made] at ran ran'
    simp only [Script.evaluation, made, ← heap, ← heap'] at done
    have whole := acted after done
    rw [← evaluate_eq sound, ← evaluate_eq sound'] at whole
    rw [Engine.Work.ok_bind ran, Engine.Work.ok_bind ran']
    exact whole
  | error fault =>
    rw [made] at ran ran'
    have other := refusal_other source fault
    rw [Engine.Work.error_bind ran, Engine.Work.error_bind ran']
    exact .error (.refl f) (.other other other) after

theorem isPresent_sent {v v' : Value} (sends : f.Sends v v') : isPresent v' = isPresent v := by
  obtain ⟨-, rfl⟩ := sends
  cases v <;> rfl

theorem report {v v' : Value} (sends : f.Sends v v') :
    Matches f Renaming.Sends (do return if Step.isReport (← get) v then v else .nothing : Job Value)
      (do return if Step.isReport (← get) v' then v' else .nothing : Job Value) := by
  obtain ⟨covers, rfl⟩ := sends
  intro w w' renamed
  have same : Step.isReport w' (v.rename f.map) = Step.isReport w v := by
    simp only [Step.isReport, renamed.heap.classOf covers]
  simp only [Bind.bind, EStateM.bind, Script.get_result, same]
  split
  · exact .ok (.refl f) ⟨covers, rfl⟩ renamed
  · exact .ok (.refl f) (nothing_sent f) renamed

theorem inputRequired_eq (v : Value) : Script.makeInputRequired ⟨[v], []⟩ =
    Act.allocate (.record .inputRequired #[("descriptor", v), ("expires", .nothing), ("errors", .nothing)]) := rfl

theorem makeInputRequired {v v' : Value} (sends : f.Sends v v') :
    Act.Matches f Renaming.Sends (Script.makeInputRequired ⟨[v], []⟩) (Script.makeInputRequired ⟨[v'], []⟩) := by
  obtain ⟨covers, rfl⟩ := sends
  have made := Heap.Renamed.housing.allocate (f := f)
    (o := .record .inputRequired #[("descriptor", v), ("expires", .nothing), ("errors", .nothing)]) (by
      refine Renaming.CoversAll.addresses (fun u member => ?_)
      simp only [List.map_cons, List.map_nil, List.mem_cons, List.not_mem_nil, or_false] at member
      obtain rfl | rfl | rfl := member
      · exact covers
      · exact (nothing_sent f).1
      · exact (nothing_sent f).1)
  have same : (Script.Object.record .inputRequired
      #[("descriptor", v), ("expires", .nothing), ("errors", .nothing)]).rename f.map =
        .record .inputRequired #[("descriptor", v.rename f.map), ("expires", .nothing), ("errors", .nothing)] := by
    simp [Script.Object.rename, Script.Field.rename, Value.rename]
  rw [same] at made
  rw [inputRequired_eq, inputRequired_eq]
  exact made

/-- A step that is handled comes to the same if it evaluates to the same, should it evaluate anything. -/
theorem handle {s s' : Step} (sent : Step.Sent f s s') {context context' input input' : Value} {v w : World}
    (renamed : World.Renamed f v w) (sends : f.Sends context context') (given : f.Sends input input')
    (portable : (s.requiresInput && !isPresent input) = false → s.Portable v.heap context input) :
    Carried World.Renamed Fault.Sent f Renaming.Sends (s.handle context input v) (s'.handle context' input' w) := by
  have requires : s'.requiresInput = s.requiresInput := by
    obtain ⟨covers, same⟩ := sent.input
    simp only [Step.requiresInput, same]
    cases s.input <;> rfl
  unfold Step.handle
  rw [requires, isPresent_sent given]
  cases asks : s.requiresInput && !isPresent input with
  | true =>
    simp only [if_true]
    have made (id other : String) : Matches f Renaming.Sends (do
        Job.log .debug "stepflow.exec.step" s!"Step '{id}' requires input"
        Job.act (Script.makeInputRequired ⟨[s.input], []⟩)) (do
        Job.log .debug "stepflow.exec.step" s!"Step '{other}' requires input"
        Job.act (Script.makeInputRequired ⟨[s'.input], []⟩)) :=
      (log _ _ _ _ _ _).bind (fun g _ _ within _ => act (makeInputRequired (sent.input.mono within)))
    exact made _ _ v w renamed
  | false =>
    simp only [Bool.false_eq_true, if_false]
    have runs := portable asks f s' context' input' w.heap sent sends given renamed.heap
    have handler := sent.handler
    simp only [Step.evaluation] at runs
    generalize s.handler = k, s'.handler = k' at handler runs
    cases handler with
    | source text =>
      have whole := (evaluated renamed runs).bind (fun g u u' v' w' _ sends worlds _ => report sends v' w' worlds)
      simp only [bind_assoc] at whole
      exact whole
    | @call u u' called =>
      have whole := (acted renamed runs).bind (fun g u u' v' w' _ sends worlds _ => report sends v' w' worlds)
      rw [← Job.act_bind, ← Job.act_bind, bind_assoc, bind_assoc] at whole
      exact whole

/-! Halts. -/

theorem optionalField {v v' : Value} (sends : f.Sends v v') (name : String) :
    Matches f Renaming.Sends (Job.optionalField v name) (Job.optionalField v' name) := by
  obtain ⟨covers, rfl⟩ := sends
  intro w w' renamed
  obtain ⟨taken, covered⟩ := renamed.heap.attribute? covers name
  simp only [Job.optionalField, Bind.bind, EStateM.bind, Script.get_result, taken]
  cases found : v.attribute? w.heap name with
  | some u => exact .ok (.refl f) ⟨covered u found, rfl⟩ renamed
  | none => exact .ok (.refl f) (nothing_sent f) renamed

theorem haltOfInput {v v' : Value} (sends : f.Sends v v') : Matches f Halt.Sent (Job.haltOfInput v) (Job.haltOfInput v') := by
  refine (act (.getAttribute sends (by decide))).bind (fun g descriptor descriptor' first described => ?_)
  refine (optionalField (sends.mono first) _).bind (fun k expires expires' second expires => ?_)
  refine (optionalField ((sends.mono first).mono second) _).bind (fun l errors errors' third errors => ?_)
  exact .pure ⟨nothing_sent l, errors, (described.mono second).mono third, expires.mono third⟩

theorem haltOfFailure {v v' : Value} (sends : f.Sends v v') :
    Matches f Halt.Sent (Job.haltOfFailure v) (Job.haltOfFailure v') := by
  refine (act (.getAttribute sends (by decide))).bind (fun g _ _ first error => ?_)
  have sends := sends.mono first
  refine (act (.getAttribute sends (by decide))).bind (fun k _ _ second errors => ?_)
  have sends := sends.mono second
  refine (act (.getAttribute sends (by decide))).bind (fun l _ _ third descriptor => ?_)
  refine (act (.getAttribute (sends.mono third) (by decide))).bind (fun m _ _ fourth expires => ?_)
  exact .pure ⟨((error.mono second).mono third).mono fourth, (errors.mono third).mono fourth, descriptor.mono fourth, expires⟩

theorem outcomeOf {v v' : Value} (sends : f.Sends v v') :
    Matches f Outcome.Sent (Job.outcomeOf v) (Job.outcomeOf v') := by
  intro w w' renamed
  have same : v'.classOf w'.heap = v.classOf w.heap := by
    rw [sends.2]
    exact renamed.heap.classOf sends.1
  simp only [Job.outcomeOf, Bind.bind, EStateM.bind, Script.get_result, same]
  cases v.classOf w.heap with
  | error c => exact (haltOfFailure sends).bind (fun _ _ _ _ halt => .pure (.failed halt)) w w' renamed
  | kind k =>
    cases k with
    | inputRequired => exact (haltOfInput sends).bind (fun _ _ _ _ halt => .pure (.awaits halt)) w w' renamed
    | _ => exact .ok (.refl f) .done renamed

/-- What comes of a job that may fail in a way that can be retried. -/
inductive Tried (like : Renaming → α → β → Prop) (f : Renaming) : Except Value α → Except Value β → Prop where
  | done {a b} (values : like f a b) : Tried like f (.ok a) (.ok b)
  | retriable {v v'} (sends : f.Sends v v') : Tried like f (.error v) (.error v')

theorem orRetriable {x : Job α} {y : Job β} {v w : World} (done : Carried World.Renamed Fault.Sent f like (x v) (y w)) :
    Carried World.Renamed Fault.Sent f (Tried like) (Job.orRetriable x v) (Job.orRetriable y w) := by
  cases left : x v with
  | ok a v' =>
    rw [left] at done
    rw [orRetriable_of_ok left]
    generalize right : y w = ended at done
    cases done with
    | ok within values worlds =>
      rw [orRetriable_of_ok right]
      exact .ok within (.done values) worlds
  | error fault v' =>
    rw [left] at done
    generalize right : y w = ended at done
    cases done with
    | @error g _ _ _ w' within misses worlds =>
      cases misses with
      | @raised e e' sends =>
        have answer : Job.isRetriable w' e' = Job.isRetriable v' e := by
          rw [sends.2]
          simp only [Job.isRetriable, worlds.heap.classOf sends.1]
        rw [orRetriable_of_raised left, orRetriable_of_raised right, answer]
        split
        · exact .ok within (.retriable sends) worlds
        · exact .error within (.raised sends) worlds
      | other other other' =>
        rw [orRetriable_of_other left other, orRetriable_of_other right other']
        exact .error within (.other other other') worlds

theorem mergeInput {literal literal' supplied supplied' : Value} (first : f.Sends literal literal')
    (second : f.Sends supplied supplied') :
    Act.Matches f Renaming.Sends (Workflow.mergeInput literal supplied) (Workflow.mergeInput literal' supplied') := by
  obtain ⟨covers, rfl⟩ := first
  obtain ⟨covers', rfl⟩ := second
  by_cases both : ∃ a b, literal = .ref a ∧ supplied = .ref b
  · obtain ⟨a, b, rfl, rfl⟩ := both
    refine (Act.Matches.object (Renaming.covers_ref.mp covers)).bind (fun g o o' within here => ?_)
    have there := (Renaming.covers_ref.mp covers')
    have sends : g.Sends (.ref b) (.ref (f.map b)) := Renaming.Sends.mono (f := f) ⟨covers', rfl⟩ within
    have object := Act.Matches.object (f := g) (within b there).1
    rw [(within b there).2] at object
    refine object.bind (fun k p p' more given => ?_)
    obtain ⟨inside, rfl⟩ := here
    obtain ⟨inside', rfl⟩ := given
    have sends := sends.mono more
    rw [← more.renameObject inside]
    have inside := inside.mono more
    cases o with
    | dict declared =>
      cases p with
      | dict given =>
        obtain ⟨all, covered⟩ := Entries.insertAll_renamed (Entries.coveredBy_iff.mp inside) (Entries.coveredBy_iff.mp inside')
        have made := Act.Matches.newDict covered
        rw [← all] at made
        exact made
      | _ => exact .pure sends
    | _ => exact .pure sends
  · have given : f.Sends supplied (supplied.rename f.map) := ⟨covers', rfl⟩
    cases supplied with
    | nothing => exact .pure ⟨covers, rfl⟩
    | ref b =>
      cases literal with
      | ref a => exact absurd ⟨a, b, rfl, rfl⟩ both
      | _ => exact .pure given
    | _ => cases literal <;> exact .pure given

end Job.Matches

/-! Calls. -/

/-- Calls correspond. -/
structure Call.Sent (f : Renaming) (call call' : Call) : Prop where
  named : ∃ id, call.schema = .str id ∧ call'.schema = .str id
  context : f.Sends call.context call'.context

theorem Call.Sent.mono {f g : Renaming} {call call' : Call} (sent : Call.Sent f call call') (within : f.Within g) :
    Call.Sent g call call' := ⟨sent.named, sent.context.mono within⟩

theorem Executor.step_ok {id : String} {s : Step} {w w' : World} (found : Executor.step id w = .ok s w') :
    w.registry.step? id = some s ∧ w' = w := by
  simp only [Executor.step, Bind.bind, EStateM.bind, Script.get_result] at found
  cases known : w.registry.step? id with
  | none =>
    rw [known] at found
    cases found
  | some s' =>
    rw [known] at found
    cases found
    exact ⟨rfl, rfl⟩

namespace Call.Sent
variable {f : Renaming} {call call' : Call} (sent : Call.Sent f call call')
include sent

open Job.Matches in
theorem decide {c d : Condition} (condition : Condition.Sent f c d) {v w : World} (renamed : World.Renamed f v w)
    (portable : c.Portable v.heap call.context) :
    Carried World.Renamed Fault.Sent f (fun _ b b' => b' = b) (call.decide c v) (call'.decide d w) := by
  have runs := portable f d call'.context w.heap condition sent.context renamed.heap
  have ended (g : Renaming) (v v' : Value) (_ : f.Within g) (sends : g.Sends v v') :
      Job.Matches g (fun _ b b' => b' = b) (Job.act (Act.truth v)) (Job.act (Act.truth v')) := act (.truth sends)
  cases condition with
  | source text =>
    have whole := (evaluated renamed runs).bind (fun g u u' v' w' within sends worlds _ => ended g u u' within sends v' w' worlds)
    simp only [bind_assoc] at whole
    exact whole
  | @call k k' called =>
    have whole := (acted renamed runs).bind (fun g u u' v' w' within sends worlds _ => ended g u u' within sends v' w' worlds)
    simp only [Condition.evaluation, ← Job.act_bind, bind_assoc] at whole
    exact whole

open Job.Matches in
theorem check {c d : Condition} (condition : Condition.Sent f c d) {v w : World} (renamed : World.Renamed f v w)
    (portable : c.Portable v.heap call.context) :
    Carried World.Renamed Fault.Sent f Engine.Answered (call.check c v) (call'.check d w) := by
  refine (orRetriable (sent.decide condition renamed portable)).bind (fun g tried tried' v' w' within answer worlds _ => ?_)
  cases answer with
  | done same =>
    cases same
    exact .ok (.refl g) (.passed _) worlds
  | retriable sends => exact (haltOfFailure sends).bind (fun _ _ _ _ halt => .pure (.halted halt)) v' w' worlds

open Job.Matches in
theorem invoke (id : String) {literal literal' supplied supplied' : Value} (declared : f.Sends literal literal')
    (given : f.Sends supplied supplied') (place : List Int) {v w : World} (renamed : World.Renamed f v w)
    (portable : ∀ s input h, v.registry.step? id = some s → mergeInput literal supplied v.heap = .ok input h →
      (s.requiresInput && !isPresent input) = false → s.Portable h call.context input) :
    Carried World.Renamed Fault.Sent f Outcome.Sent (call.invoke id literal supplied place v)
      (call'.invoke id literal' supplied' place w) := by
  refine (step id v w renamed).bind (fun g s s' v₁ w₁ within found worlds ran => ?_)
  obtain ⟨known, rfl⟩ := Executor.step_ok ran
  have merged := acted worlds (Job.Matches.mergeInput (declared.mono within) (given.mono within) _ _ worlds.heap)
  refine merged.bind (fun k input input' v₂ w₂ more merged worlds ran => ?_)
  obtain ⟨h, made, rfl⟩ := Job.act_ok ran
  have portable := portable s input h known made
  refine (log _ _ _ _ _ _ _ _ worlds).bind (fun l _ _ v₃ w₃ last _ worlds ran => ?_)
  cases ran
  have sends := sent.context.mono ((within.trans more).trans last)
  have handled := handle (found.mono (more.trans last)) worlds sends (merged.mono last) portable
  refine (orRetriable handled).bind (fun m tried tried' v₄ w₄ _ answer worlds _ => ?_)
  cases answer with
  | done sends => exact outcomeOf sends v₄ w₄ worlds
  | retriable sends => exact (haltOfFailure sends).bind (fun _ _ _ _ halt => .pure (.failed halt)) v₄ w₄ worlds

/-! What is told. -/

open Job.Matches in
theorem logEnd {event event' : Engine.Event} {v v' : Engine.View} (same : Engine.Event.Sent event event')
    (view : Engine.View.Sent f v v') : Job.Matches f Whatever (call.logEnd event v) (call'.logEnd event' v') := by
  have nothing : Job.Matches f Whatever (pure () : Job Unit) (pure () : Job Unit) := .pure trivial
  obtain ⟨id, named, named'⟩ := sent.named
  have halted (level : Engine.Level) (other : level ≠ .nested) :
      Job.Matches f Whatever (call.logEnd (.interrupted level) v) (call'.logEnd (.interrupted level) v') := by
    obtain ⟨-, -, ⟨none, none'⟩ | ⟨k, l, found, found', halt⟩⟩ := view
    · unfold Call.logEnd
      rw [none, none']
      cases level with
      | nested => exact absurd rfl other
      | _ => exact nothing
    · unfold Call.logEnd
      rw [found, found', named, named']
      cases level with
      | nested => exact absurd rfl other
      | _ =>
        refine (shown (Value.isBare.sends (v := .str id) rfl f)).bind (fun g _ _ within _ => ?_)
        have error := halt.error.mono within
        rw [isPresent_sent error]
        split
        · exact (shown error).bind (fun _ _ _ _ _ => log _ _ _ _ _ _)
        · exact log _ _ _ _ _ _
  have ended (level : Engine.Level) :
      Job.Matches f Whatever (call.logEnd (.ended level) v) (call'.logEnd (.ended level) v') := by
    unfold Call.logEnd
    rw [named, named']
    cases level with
    | nested => exact nothing
    | _ => exact (shown (Value.isBare.sends (v := .str id) rfl f)).bind (fun _ _ _ _ _ => log _ _ _ _ _ _)
  cases same with
  | checked role c d passed => exact nothing
  | same event =>
    cases event with
    | interrupted level =>
      cases level with
      | nested => exact nothing
      | started => exact halted .started (by simp)
      | resumed => exact halted .resumed (by simp)
    | ended level => exact ended level
    | _ => exact nothing

end Call.Sent

/-! What is told makes new values, and nothing else can come of it once the end of a call is logged. -/

/-- What is told of an event behind the log. -/
def Call.tell (audience : Audience) (call : Call) (event : Engine.Event) (v : Engine.View) : Job Unit := do
  let result ← Job.act (call.result v)
  let payload ← Job.act (call.payload event)
  Trace.deliver audience call.listener
    { event := event.name, payload, result := some result
      time := if event.isTimed then .float 0.0 else .nothing }

theorem Call.emit_eq_tell (audience : Audience) (call : Call) (event : Engine.Event) (v : Engine.View) :
    call.emit audience event v = call.logEnd event v >>= fun _ => call.tell audience event v := rfl

theorem Call.tell_adds {audience : Audience} (heeds : audience.Heeds World.Adds) (call : Call) (event : Engine.Event)
    (v : Engine.View) (w : World) : ∃ w', call.tell audience event v w = .ok () w' ∧ World.Adds w w' := by
  have along : Along World.Adds (call.tell audience event v) := by
    have tolerant := World.Adds.tolerant
    have result : Along Heap.Grows (call.result v) :=
      Heap.Grows.lasting.bind (Act.allocate_grows _) (fun _ => Heap.Grows.lasting.pure _)
    refine tolerant.bind (tolerant.adds (fun _ _ grows => grows) result) (fun _ => ?_)
    refine tolerant.bind (tolerant.payload (fun _ _ grows => grows) call event) (fun _ => ?_)
    exact tolerant.bind tolerant.get (fun _ => tolerant.deliverTo heeds _ _)
  have told : ∃ w', call.tell audience event v w = .ok () w' := by
    have made : ∃ r h, call.result v w.heap = .ok r h := ⟨_, _, rfl⟩
    obtain ⟨r, h, made⟩ := made
    have shown : ∃ u h', call.payload event h = .ok u h' := by
      unfold Call.payload
      split <;> exact ⟨_, _, rfl⟩
    obtain ⟨u, h', shown⟩ := shown
    simp only [Call.tell, Job.act, Trace.deliver, Bind.bind, EStateM.bind, made, shown, Script.get_result]
    exact Trace.deliverTo_ok _ _ _ _
  obtain ⟨w', told⟩ := told
  exact ⟨w', told, along.ok told⟩

theorem Call.Sent.emit {audience : Audience} (heeds : audience.Heeds World.Adds) {f : Renaming} {call call' : Call}
    (sent : Call.Sent f call call') {event event' : Engine.Event} {v v' : Engine.View} (same : Engine.Event.Sent event event')
    (view : Engine.View.Sent f v v') :
    Job.Matches f Whatever (call.emit audience event v) (call'.emit audience event' v') := by
  rw [Call.emit_eq_tell, Call.emit_eq_tell]
  exact (sent.logEnd same view).bind (fun _ _ _ _ _ =>
    Job.Matches.added (call.tell_adds heeds event v) (call'.tell_adds heeds event' v'))

/-- A deed of a call comes to the same wherever the objects of its world lie. -/
def Engine.Deed.Portable (call : Call) : Engine.Deed World → Prop
  | .checked _ c _ v _ _ => c.Portable v.heap call.context
  | .invoked id literal supplied _ v _ _ => ∀ s input h, v.registry.step? id = some s →
      mergeInput literal supplied v.heap = .ok input h → (s.requiresInput && !isPresent input) = false →
      s.Portable h call.context input

/-- A recorded call is lost with the first deed that depends on where objects lie. -/
def Call.Lost (call : Call) (s : World × List (Engine.Deed World)) : Prop := ∃ d ∈ s.2, ¬ d.Portable call

namespace Call
variable {call : Call} {v v' : World} {log : List (Engine.Deed World)} {d : Engine.Deed World}

theorem lost_last (unfit : ¬ d.Portable call) : call.Lost (v, log ++ [d]) :=
  ⟨d, List.mem_append_right _ (List.mem_singleton.mpr rfl), unfit⟩

theorem Lost.more (lost : call.Lost (v, log)) : call.Lost (v', log ++ [d]) := by
  obtain ⟨e, member, unfit⟩ := lost
  exact ⟨e, List.mem_append_left _ member, unfit⟩

theorem lost_stays (audience : Audience) (call : Call) :
    Engine.HostAlong (Engine.Stays call.Lost) (call.host audience).recorded where
  check role c place := by
    rintro ⟨v, log⟩ lost
    obtain ⟨a, v', ran⟩ := Engine.exists_answered ((call.host audience).check role c place v)
    rw [Engine.recorded_check _ v log a ran]
    cases a <;> exact lost.more
  invoke id literal supplied place := by
    rintro ⟨v, log⟩ lost
    obtain ⟨a, v', ran⟩ := Engine.exists_answered ((call.host audience).invoke id literal supplied place v)
    rw [Engine.recorded_invoke _ v log a ran]
    cases a <;> exact lost.more
  emit event view := by
    rintro ⟨v, log⟩ lost
    obtain ⟨a, v', ran⟩ := Engine.exists_answered ((call.host audience).emit event view v)
    rw [Engine.recorded_emit _ v log a ran]
    cases a <;> exact lost

/-- What a deed comes to is what the recorded host comes to. -/
theorem recorded_carried {f : Renaming} {like : Renaming → α → β → Prop} {a : Except Fault α} {y : EStateM.Result Fault World β}
    (log : List (Engine.Deed World)) (done : Carried World.Renamed Fault.Sent f like (Engine.answered a v') y) :
    Carried (fun g (s : World × List (Engine.Deed World)) w => World.Renamed g s.1 w) Fault.Sent f like
      (Engine.answered a (v', log)) y := by
  cases a with
  | ok a =>
    cases done with
    | ok within values worlds => exact .ok within values worlds
  | error fault =>
    cases done with
    | error within misses worlds => exact .error within misses worlds

end Call

/-- Corresponding calls have hosts that do alike, as long as what the first of them does is portable. -/
theorem Call.Sent.hosts {audience : Audience} (heeds : audience.Heeds World.Adds) {f : Renaming} {call call' : Call}
    (sent : Call.Sent f call call') :
    Engine.HostsAlike call.Lost (fun g s w => World.Renamed g s.1 w) f (call.host audience).recorded (call'.host audience) where
  stays := call.lost_stays audience
  check g within role c c' place condition := by
    rintro ⟨v, log⟩ w renamed
    obtain ⟨a, v', ran⟩ := Engine.exists_answered ((call.host audience).check role c place v)
    rw [Engine.recorded_check _ v log a ran]
    by_cases portable : c.Portable v.heap call.context
    · have done := (sent.mono within).check condition renamed portable
      rw [show call.check c v = _ from ran] at done
      exact .inr (recorded_carried _ done)
    · have lost : call.Lost (v', log ++ [.checked role c place v a v']) := Call.lost_last portable
      cases a <;> exact .inl lost
  invoke g within id literal literal' supplied supplied' place declared given := by
    rintro ⟨v, log⟩ w renamed
    obtain ⟨a, v', ran⟩ := Engine.exists_answered ((call.host audience).invoke id literal supplied place v)
    rw [Engine.recorded_invoke _ v log a ran]
    by_cases portable : (Engine.Deed.invoked id literal supplied place v a v').Portable call
    · have done := (sent.mono within).invoke id declared given place renamed portable
      rw [show call.invoke id literal supplied place v = _ from ran] at done
      exact .inr (recorded_carried _ done)
    · have lost : call.Lost (v', log ++ [.invoked id literal supplied place v a v']) := Call.lost_last portable
      cases a <;> exact .inl lost
  emit g within event event' view view' same views := by
    rintro ⟨v, log⟩ w renamed
    obtain ⟨a, v', ran⟩ := Engine.exists_answered ((call.host audience).emit event view v)
    rw [Engine.recorded_emit _ v log a ran]
    have done := (sent.mono within).emit heeds same views v w renamed
    rw [show call.emit audience event view v = _ from ran] at done
    exact .inr (recorded_carried log done)

end Workflow
