import Workflow.Proofs.Quiet
import Workflow.Proofs.Raising

/-! The cache of an evaluator. Over any history of an evaluator, a source comes to what it comes to on a new one, and all that
can be told from the cache is which sources were compiled since it was cleared last. -/

namespace Workflow
open Engine (Agree Work answered)
open Script (Compiled Entries Evaluator Value)

/-- What an evaluator is asked. -/
inductive Use where
  | compile (source : String)
  | evaluate (source : String) (bindings : Entries)
  | isCached (source : String)
  | clear

inductive Reply where
  | callable (compiled : Compiled)
  | value (v : Value)
  | cached (known : Bool)
  | cleared

namespace Use

def ask : Use → Job Reply
  | .compile source => return .callable (← Job.compiled source)
  | .evaluate source bindings => return .value (← Job.evaluate (← Job.compile source) bindings)
  | .isCached source => return .cached ((← get).evaluator.isCached source)
  | .clear => do
    modify (fun w => { w with evaluator := w.evaluator.clear })
    return .cleared

/-- The source that has to be compiled. -/
def source? : Use → Option String
  | .compile source => some source
  | .evaluate source _ => some source
  | .isCached _ => none
  | .clear => none

def clears : Use → Bool
  | .clear => true
  | _ => false

end Use

/-- A question to an evaluator, and the world in which it was asked. -/
structure Question where
  use : Use
  before : World

/-- A source was compiled to answer a question. -/
def Question.Compiles (q : Question) (source : String) (c : Compiled) : Prop :=
  q.use.source? = some source ∧ ∃ w, Job.compiled source q.before = .ok c w

/-- The questions that the evaluator of a world is asked, the last one first. In between anything may happen to the world, as
long as it does not happen to the evaluator. -/
inductive Uses (w : World) : List Question → World → Prop where
  | nothing : Uses w [] w
  | elsewhere {log v v'} (earlier : Uses w log v) (same : v'.evaluator = v.evaluator) : Uses w log v'
  | asked {log v} (earlier : Uses w log v) (u : Use) : Uses w (⟨u, v⟩ :: log) (leftBy (u.ask v))

/-- The questions since the evaluator was cleared last. -/
def lately (log : List Question) : List Question := log.takeWhile (fun q => !q.use.clears)

namespace Uses
variable {w v v' : World} {log : List Question}

theorem trans {later : List Question} (uses : Uses w log v) (more : Uses v later v') : Uses w (later ++ log) v' := by
  induction more with
  | nothing => exact uses
  | elsewhere earlier same ih => exact ih.elsewhere same
  | asked earlier u ih => exact ih.asked u

/-- What was asked before a question is a history up to the world in which it was asked. -/
theorem until_question {later earlier : List Question} {q : Question} (uses : Uses w (later ++ q :: earlier) v) :
    Uses w earlier q.before := by
  generalize whole : later ++ q :: earlier = log at uses
  induction uses generalizing later with
  | nothing => simp at whole
  | elsewhere before same ih => exact ih whole
  | asked before u ih =>
    cases later with
    | nil =>
      cases whole
      exact before
    | cons last later => exact ih (List.cons.inj whole).2

end Uses

namespace Script.Evaluator
variable {e : Evaluator}

theorem cached?_remembered (e : Evaluator) (source other : String) (c : Compiled) (next : Nat) :
    ({ e with cache := e.cache ++ [(source, c)], next } : Evaluator).cached? other =
      (e.cached? other).or (if source = other then some c else none) := by
  rw [cached?, cached?, List.find?_append, Option.map_or, List.find?_singleton]
  by_cases same : source = other
  · simp [same]
  · simp [same]

/-- Compiling gives what was compiled before, or something new that is remembered. -/
theorem compile_cases {source : String} {found : Outcome} (ran : e.compile source = .ok found) :
    e.cached? source = some found.compiled ∧ found.evaluator = e ∨
      e.cached? source = none ∧ found.compiled.serial = e.next ∧
        found.evaluator = { e with cache := e.cache ++ [(source, found.compiled)], next := e.next + 1 } := by
  unfold Evaluator.compile at ran
  cases known : e.cached? source with
  | some compiled =>
    rw [known] at ran
    cases ran
    exact .inl ⟨rfl, rfl⟩
  | none =>
    rw [known] at ran
    dsimp only at ran
    split at ran
    · cases ran
    · cases ran
      exact .inr ⟨rfl, rfl, rfl⟩

end Script.Evaluator

theorem Job.compiled_answers (source : String) (w : World) :
    (∃ found journal, w.evaluator.compile source = .ok found ∧
        Job.compiled source w = .ok found.compiled { w with evaluator := found.evaluator, journal }) ∨
      ∃ fault, w.evaluator.compile source = .error fault ∧ Job.compiled source w = .error (refusal source fault) w := by
  simp only [Job.compiled, Bind.bind, EStateM.bind, Script.get_result]
  cases made : w.evaluator.compile source with
  | error fault => cases fault <;> exact .inr ⟨_, rfl, rfl⟩
  | ok found =>
    dsimp only [Script.set_result]
    split <;> exact .inl ⟨found, _, rfl, rfl⟩

/-- A question changes the evaluator by compiling its source, unless the evaluator is cleared. -/
theorem Use.ask_evaluator (u : Use) (w : World) :
    (leftBy (u.ask w)).evaluator = match u.source? with
      | some source => (leftBy (Job.compiled source w)).evaluator
      | none => if u.clears then w.evaluator.clear else w.evaluator := by
  have compiles (source : String) : (leftBy (Job.compile source w)).evaluator = (leftBy (Job.compiled source w)).evaluator := by
    simp only [Job.compile, Bind.bind, EStateM.bind]
    cases Job.compiled source w <;> rfl
  cases u with
  | compile source =>
    simp only [ask, source?, Bind.bind, EStateM.bind]
    cases Job.compiled source w <;> rfl
  | evaluate source bindings =>
    have evaluated (program : Script.Program) (w : World) :
        (leftBy (Job.evaluate program bindings w)).evaluator = w.evaluator := by
      simp only [Job.evaluate, Job.act, Bind.bind, EStateM.bind, Script.get_result]
      split <;> rfl
    refine Eq.trans ?_ (compiles source)
    simp only [ask, Bind.bind, EStateM.bind]
    cases Job.compile source w with
    | error fault w₁ => rfl
    | ok program w₁ =>
      dsimp only
      have same := evaluated program w₁
      cases ran : Job.evaluate program bindings w₁ <;> rw [ran] at same <;> exact same
  | isCached source => rfl
  | clear => rfl

/-- What an evaluator has in its cache is what was compiled since it was cleared last. Compiled sources are told apart by their
serials. -/
structure Remembers (log : List Question) (e : Evaluator) : Prop where
  honest : e.Honest
  numbered : ∀ source c, e.cached? source = some c → c.serial < e.next
  apart : ∀ source other c d, e.cached? source = some c → e.cached? other = some d → source ≠ other → c.serial ≠ d.serial
  cached : ∀ source c, e.cached? source = some c ↔ ∃ q ∈ lately log, q.Compiles source c

namespace Remembers
variable {log : List Question} {w : World}

theorem empty {e : Evaluator} (empty : e.cache = []) : Remembers [] e := by
  have nothing (source : String) : e.cached? source = none := by
    rw [Evaluator.cached?, empty]
    rfl
  refine ⟨?_, ?_, ?_, ?_⟩
  · intro source c known
    cases (nothing source).symm.trans known
  · intro source c known
    cases (nothing source).symm.trans known
  · intro source other c d known
    cases (nothing source).symm.trans known
  · intro source c
    rw [nothing, lately]
    simp

theorem cleared (q : Question) (clears : q.use.clears = true) (e : Evaluator) : Remembers (q :: log) e.clear := by
  have forgotten := empty (e := e.clear) rfl
  refine { forgotten with cached := fun source c => (forgotten.cached source c).trans ?_ }
  rw [lately, lately, List.takeWhile_cons, clears]
  rfl

/-- A question that compiles nothing new leaves the cache as it is. -/
theorem unchanged {e : Evaluator} (remembers : Remembers log e) (q : Question) (kept : q.use.clears = false)
    (known : ∀ source c, q.Compiles source c → e.cached? source = some c) : Remembers (q :: log) e := by
  refine { remembers with cached := fun source c => ?_ }
  rw [remembers.cached, lately, lately, List.takeWhile_cons, kept]
  simp only [Bool.not_false, if_true, List.mem_cons, exists_eq_or_imp]
  refine ⟨.inr, ?_⟩
  rintro (compiles | earlier)
  · exact (remembers.cached source c).mp (known source c compiles)
  · exact earlier

/-- What is new is remembered, with a serial of its own. -/
theorem extended {e : Evaluator} (remembers : Remembers log e) (q : Question) (kept : q.use.clears = false) {source : String}
    {found : Evaluator.Outcome} (made : e.compile source = .ok found) (unknown : e.cached? source = none)
    (serial : found.compiled.serial = e.next)
    (larger : found.evaluator = { e with cache := e.cache ++ [(source, found.compiled)], next := e.next + 1 })
    (compiles : ∀ other c, q.Compiles other c ↔ source = other ∧ found.compiled = c) :
    Remembers (q :: log) found.evaluator := by
  have entry (other : String) (c : Compiled) : found.evaluator.cached? other = some c ↔
      e.cached? other = some c ∨ source = other ∧ found.compiled = c := by
    rw [larger, Evaluator.cached?_remembered]
    by_cases same : source = other
    · subst same
      simp [unknown]
    · simp [same]
  refine ⟨(remembers.honest.compile made).1, ?_, ?_, ?_⟩
  · intro other c known
    rw [larger]
    obtain known | ⟨-, rfl⟩ := (entry other c).mp known
    · exact Nat.lt_succ_of_lt (remembers.numbered other c known)
    · exact serial ▸ Nat.lt_succ_self _
  · intro first second c d left right different
    obtain left | ⟨rfl, rfl⟩ := (entry first c).mp left
    · obtain right | ⟨rfl, rfl⟩ := (entry second d).mp right
      · exact remembers.apart first second c d left right different
      · exact serial ▸ Nat.ne_of_lt (remembers.numbered first c left)
    · obtain right | ⟨rfl, rfl⟩ := (entry second d).mp right
      · exact serial ▸ Nat.ne_of_gt (remembers.numbered second d right)
      · exact absurd rfl different
  · intro other c
    rw [entry, remembers.cached, lately, lately, List.takeWhile_cons, kept]
    simp only [Bool.not_false, if_true, List.mem_cons, exists_eq_or_imp, compiles]
    exact or_comm

theorem asked (remembers : Remembers log w.evaluator) (u : Use) :
    Remembers (⟨u, w⟩ :: log) (leftBy (u.ask w)).evaluator := by
  rw [u.ask_evaluator]
  cases reads : u.source? with
  | none =>
    cases clears : u.clears with
    | true => exact cleared _ clears _
    | false =>
      refine remembers.unchanged _ clears (fun source c compiles => ?_)
      cases reads.symm.trans compiles.1
  | some source =>
    have kept : u.clears = false := by
      cases u with
      | clear => cases reads
      | _ => rfl
    have only (other : String) (c : Compiled) : Question.Compiles ⟨u, w⟩ other c ↔
        source = other ∧ ∃ w', Job.compiled source w = .ok c w' := by
      rw [Question.Compiles, reads, Option.some_inj]
      exact and_congr_right (fun same => by rw [same])
    dsimp only
    obtain ⟨found, journal, made, ran⟩ | ⟨fault, -, failed⟩ := Job.compiled_answers source w
    · have gives (other : String) (c : Compiled) : Question.Compiles ⟨u, w⟩ other c ↔ source = other ∧ found.compiled = c := by
        rw [only, ran]
        simp
      rw [ran, leftBy]
      obtain ⟨known, same⟩ | ⟨unknown, serial, larger⟩ := Evaluator.compile_cases made
      · rw [same]
        refine remembers.unchanged _ kept (fun other c compiles => ?_)
        obtain ⟨rfl, rfl⟩ := (gives other c).mp compiles
        exact known
      · exact remembers.extended _ kept made unknown serial larger gives
    · rw [failed, leftBy]
      refine remembers.unchanged _ kept (fun other c compiles => ?_)
      obtain ⟨-, w', ran⟩ := (only other c).mp compiles
      cases failed.symm.trans ran

end Remembers

theorem Uses.remembers {w w' : World} {log : List Question} (uses : Uses w log w') (new : w.evaluator.cache = []) :
    Remembers log w'.evaluator := by
  induction uses with
  | nothing => exact .empty new
  | elsewhere earlier same ih => exact same ▸ ih
  | asked earlier u ih => exact ih.asked u

theorem Uses.builtins {w w' : World} {log : List Question} (uses : Uses w log w') :
    w'.evaluator.builtins = w.evaluator.builtins := by
  induction uses with
  | nothing => rfl
  | elsewhere earlier same ih => exact same ▸ ih
  | @asked log v earlier u ih =>
    rw [u.ask_evaluator]
    split
    · next source reads =>
      obtain ⟨found, journal, made, ran⟩ | ⟨fault, -, failed⟩ := Job.compiled_answers source v
      · rw [ran, leftBy]
        exact (Evaluator.compile_builtins made).trans ih
      · rw [failed]
        exact ih
    · split <;> exact ih

/-- Whatever documents, registrations and steps do with an evaluator is a history of questions. -/
theorem Uses.patient : Patient (fun w w' => ∃ log, Uses w log w') where
  refl _ := ⟨[], .nothing⟩
  trans := by
    rintro w w' w'' ⟨log, uses⟩ ⟨later, more⟩
    exact ⟨later ++ log, uses.trans more⟩
  heap _ _ _ := ⟨[], .elsewhere .nothing rfl⟩
  compiled w source found made := by
    refine ⟨_, .elsewhere (.asked .nothing (.compile source)) ?_⟩
    obtain ⟨again, journal, same, ran⟩ | ⟨fault, failed, -⟩ := Job.compiled_answers source w
    · cases same.symm.trans made
      have left := (Use.compile source).ask_evaluator w
      dsimp only [Use.source?] at left
      rw [ran] at left
      exact left.symm
    · cases failed.symm.trans made
  logged _ _ := ⟨[], .elsewhere .nothing rfl⟩
  reported _ _ := ⟨[], .elsewhere .nothing rfl⟩
  registered _ _ := ⟨[], .elsewhere .nothing rfl⟩
  attached _ _ := ⟨[], .elsewhere .nothing rfl⟩
  forgot _ := ⟨[], .elsewhere .nothing rfl⟩

/-! An evaluator that is new. -/

/-- A world whose evaluator was never asked, and has the same builtins. -/
def World.renewed (w : World) : World := { w with evaluator := { builtins := w.evaluator.builtins } }

/-- Two worlds are the same but for what their evaluators remember and for what was logged. -/
structure World.Forgetful (v w : World) : Prop where
  heap : v.heap = w.heap
  registry : v.registry = w.registry
  listeners : v.listeners = w.listeners
  files : v.files = w.files
  problems : v.problems = w.problems
  builtins : v.evaluator.builtins = w.evaluator.builtins
  honest : v.evaluator.Honest
  honest' : w.evaluator.Honest

namespace World.Forgetful

theorem compile (source : String) : Agree World.Forgetful (Job.compile source) (Job.compile source) := by
  intro v w related
  obtain ⟨evaluator, journal, honest, standard, left⟩ := Job.compile_honest related.honest source
  obtain ⟨evaluator', journal', honest', standard', right⟩ := Job.compile_honest related.honest' source
  exact ⟨_, _, _, left, right, { related with
    builtins := standard.trans (related.builtins.trans standard'.symm)
    honest := honest
    honest' := honest' }⟩

/-- What an evaluator remembers is out of sight. -/
theorem hides : Hides World.Forgetful where
  heap related := related.heap
  schemas related := congrArg Registry.schemas related.registry
  builtins related := related.builtins
  kept related _ := { related with heap := rfl }
  logged related _ := { related with }
  compile := compile

theorem renewed {w : World} (honest : w.evaluator.Honest) : World.Forgetful w w.renewed :=
  ⟨rfl, rfl, rfl, rfl, rfl, rfl, honest, nofun⟩

end World.Forgetful

/-- All that can be told from the cache of an evaluator after some questions. -/
structure CacheUnseen (log : List Question) (w : World) : Prop where
  /-- A source has the program that it has for a new evaluator, or is refused as it is there. -/
  compiles : ∀ source, ∃ answer v v', Job.compile source w = answered answer v ∧
    Job.compile source w.renewed = answered answer v' ∧ v.heap = v'.heap
  /-- It comes to the same value or error, and leaves the same values. -/
  evaluates : ∀ source bindings, ∃ answer v v', (Use.evaluate source bindings).ask w = answered answer v ∧
    (Use.evaluate source bindings).ask w.renewed = answered answer v' ∧ v.heap = v'.heap
  /-- Until the cache is cleared, a source is compiled to one and the same thing. -/
  same : ∀ later q earlier, log = later ++ q :: earlier → ∀ q' ∈ lately earlier, ∀ source c d,
    q'.Compiles source c → q.Compiles source d → c = d
  different : ∀ later q earlier, log = later ++ q :: earlier → ∀ q' ∈ lately earlier, ∀ source other c d,
    q'.Compiles source c → q.Compiles other d → source ≠ other → c.serial ≠ d.serial
  cached : ∀ source, ∃ known, (Use.isCached source).ask w = .ok (.cached known) w ∧
    (known = true ↔ ∃ q ∈ lately log, ∃ c, q.Compiles source c)
  /-- A source that is refused leaves the cache alone, and would have been refused in the same way at any time before. -/
  refused : ∀ source fault v, Job.compiled source w = .error fault v → v.evaluator = w.evaluator ∧
    ∀ q ∈ log, ∃ v', Job.compiled source q.before = .error fault v'

theorem Job.compiled_cases {source : String} {w w' : World} {c : Compiled} (ran : compiled source w = .ok c w') :
    w.evaluator.cached? source = some c ∨ w.evaluator.cached? source = none ∧ c.serial = w.evaluator.next := by
  obtain ⟨found, journal, made, same⟩ | ⟨fault, -, failed⟩ := compiled_answers source w
  · cases same.symm.trans ran
    exact (Evaluator.compile_cases made).imp And.left (fun new => ⟨new.1, new.2.1⟩)
  · cases failed.symm.trans ran

theorem Job.compiled_error {source : String} {w w' : World} {fault : Fault} (honest : w.evaluator.Honest) :
    compiled source w = .error fault w' ↔
      w' = w ∧ ∃ refused, Script.compile source = .error refused ∧ refusal source refused = fault := by
  constructor
  · intro failed
    obtain ⟨found, journal, made, ran⟩ | ⟨refused, made, same⟩ := compiled_answers source w
    · cases ran.symm.trans failed
    · cases same.symm.trans failed
      refine ⟨rfl, refused, ?_, rfl⟩
      cases written : Script.compile source with
      | ok program =>
        obtain ⟨found, ran⟩ := Evaluator.compile_of_ok (e := w.evaluator) written
        cases ran.symm.trans made
      | error other => rw [Except.error.inj ((honest.compile_error written).symm.trans made)]
  · rintro ⟨rfl, refused, written, rfl⟩
    have made := honest.compile_error written
    obtain ⟨found, journal, ran, -⟩ | ⟨fault, again, failed⟩ := compiled_answers source w'
    · cases ran.symm.trans made
    · cases again.symm.trans made
      exact failed

/-- The cache of an evaluator cannot be seen, whatever the evaluator was asked. -/
theorem cache_unseen {w w' : World} {log : List Question} (new : w.evaluator.cache = []) (uses : Uses w log w') :
    w'.evaluator.builtins = w.evaluator.builtins ∧ CacheUnseen log w' := by
  have remembers := uses.remembers new
  have agree := World.Forgetful.renewed remembers.honest
  refine ⟨uses.builtins, ?_, ?_, ?_, ?_, ?_, ?_⟩
  · intro source
    obtain ⟨answer, v, v', left, right, related⟩ := World.Forgetful.compile source _ _ agree
    exact ⟨answer, v, v', left, right, related.heap⟩
  · intro source bindings
    have evaluated : Agree World.Forgetful (Use.evaluate source bindings).ask (Use.evaluate source bindings).ask :=
      (World.Forgetful.compile source).bind (fun program => (World.Forgetful.hides.evaluate program bindings).bind (fun _ => .pure _))
    obtain ⟨answer, v, v', left, right, related⟩ := evaluated _ _ agree
    exact ⟨answer, v, v', left, right, related.heap⟩
  · rintro later q earlier rfl q' member source c d before ⟨-, v, ran⟩
    have known := (uses.until_question.remembers new).cached source c |>.mpr ⟨q', member, before⟩
    obtain again | ⟨unknown, -⟩ := Job.compiled_cases ran
    · exact Option.some.inj (known.symm.trans again)
    · cases known.symm.trans unknown
  · rintro later q earlier rfl q' member source other c d before ⟨-, v, ran⟩ different
    have earlier := uses.until_question.remembers new
    have known := (earlier.cached source c).mpr ⟨q', member, before⟩
    obtain again | ⟨-, serial⟩ := Job.compiled_cases ran
    · exact earlier.apart source other c d known again different
    · exact serial ▸ Nat.ne_of_lt (earlier.numbered source c known)
  · intro source
    refine ⟨w'.evaluator.isCached source, rfl, ?_⟩
    rw [Evaluator.isCached, Option.isSome_iff_exists]
    simp only [remembers.cached]
    exact ⟨fun ⟨c, q, member, compiles⟩ => ⟨q, member, c, compiles⟩, fun ⟨q, member, c, compiles⟩ => ⟨c, q, member, compiles⟩⟩
  · intro source fault v failed
    obtain ⟨rfl, written⟩ := (Job.compiled_error remembers.honest).mp failed
    refine ⟨rfl, fun q member => ?_⟩
    obtain ⟨later, earlier, rfl⟩ := List.append_of_mem member
    exact ⟨q.before, (Job.compiled_error (uses.until_question.remembers new).honest).mpr ⟨rfl, written⟩⟩

/-- Of two sources that differ in their blanks only, one was compiled after the cache was cleared, and one before. -/
theorem blank_apart_unseen : ∃ log w, Uses {} log w ∧ log.length = 5 ∧ w.evaluator.isCached "1" = true ∧
    w.evaluator.isCached " 1" = false ∧ CacheUnseen log w := by
  have uses := ((((Uses.nothing (w := {})).asked (.compile "1")).asked (.compile " 1")).asked (.compile "return 1")
    |>.asked .clear).asked (.evaluate "1" #[])
  exact ⟨_, _, uses, rfl, by decide +kernel, by decide +kernel, (cache_unseen rfl uses).2⟩

end Workflow
