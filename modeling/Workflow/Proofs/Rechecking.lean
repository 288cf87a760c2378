import Workflow.Document
import Workflow.Proofs.Portable
import Workflow.Proofs.Remaking

/-! Documents that are checked again. What the checks find in a document does not depend on where its objects lie: wherever a
problem is found, one is found in the same place of the same document elsewhere. -/

namespace Workflow
open Script (Act Addr Entries Heap Renaming Value)

variable {start base : Heap} {f g : Renaming}

/-- A world in which a document is loaded again, behind what was there before, and the one in which it was loaded first. If
something is wrong in one of them, something is wrong in the other one. -/
structure World.Behind (start base : Heap) (f : Renaming) (v w : World) : Prop where
  heap : Heap.Behind start base f v.heap w.heap
  registry : Registry.Sent f v.registry w.registry
  evaluators : v.evaluator.Sound ∧ w.evaluator.Sound
  problems : v.problems = [] ↔ w.problems = []

/-- Entries of mappings correspond. -/
structure Script.Entry.Sent (f : Renaming) (entry entry' : Value × Value) : Prop where
  key : f.Sends entry.1 entry'.1
  value : f.Sends entry.2 entry'.2

theorem Script.Entry.Sent.mono {entry entry' : Value × Value} (sent : Entry.Sent f entry entry') (within : f.Within g) :
    Entry.Sent g entry entry' := ⟨sent.key.mono within, sent.value.mono within⟩

/-- Mappings correspond. -/
structure Script.Entries.Sent (f : Renaming) (entries entries' : Entries) : Prop where
  covered : entries.CoveredBy f
  same : entries' = Entries.rename entries f.map

namespace Script.Entries.Sent
variable {entries entries' : Entries} (sent : Entries.Sent f entries entries')
include sent

theorem mono (within : f.Within g) : Entries.Sent g entries entries' :=
  ⟨sent.covered.mono within, by rw [sent.same, sent.covered.rename within]⟩

theorem row : List.Forall₂ (Entry.Sent f) entries.toList entries'.toList := by
  rw [sent.same, Entries.rename, Array.toList_map, List.forall₂_map_right_iff, List.forall₂_same]
  intro entry member
  obtain ⟨key, value⟩ := sent.covered entry (Array.mem_toList_iff.mp member)
  exact ⟨⟨key, rfl⟩, value, rfl⟩

theorem named? (name : String) : Option.Rel (Renaming.Sends f) (Entries.named? entries name) (Entries.named? entries' name) := by
  rw [sent.same, Entries.named?_rename sent.covered]
  cases found : Entries.named? entries name with
  | none => exact .none
  | some v => exact .some ⟨Entries.get?_covered sent.covered found, rfl⟩

theorem valueOf (name : String) : f.Sends (Document.valueOf entries name) (Document.valueOf entries' name) := by
  have found := sent.named? name
  unfold Document.valueOf
  generalize Entries.named? entries name = x, Entries.named? entries' name = y at found
  cases found with
  | none => exact nothing_sent f
  | some sends => exact sends

end Script.Entries.Sent

/-- Work on corresponding items, one after the other. -/
theorem Akin.forM {ε σ τ : Type} {R : Renaming → σ → τ → Prop} {miss : Renaming → ε → ε → Prop} {like : Renaming → α → β → Prop}
    {k : α → EStateM ε σ PUnit} {l : β → EStateM ε τ PUnit} {items : List α} {others : List β}
    (stays : ∀ {f g : Renaming} {a b}, like f a b → f.Within g → like g a b) (all : List.Forall₂ (like f) items others)
    (each : ∀ g a b, f.Within g → like g a b → Akin R miss g Whatever (k a) (l b)) :
    Akin R miss f Whatever (items.forM k) (others.forM l) := by
  induction items generalizing others f with
  | nil =>
    cases all
    exact .pure trivial
  | cons a rest ih =>
    cases all with
    | cons first all =>
      refine (each f _ _ (.refl f) first).bind (fun g _ _ within _ => ?_)
      exact ih (all.imp (fun _ _ same => stays same within)) (fun k a b more => each k a b (within.trans more))

/-- Two jobs come to the same in two worlds in which a document is loaded, or fail alike. -/
abbrev Job.Repeats (start base : Heap) (f : Renaming) (like : Renaming → α → β → Prop) (x : Job α) (y : Job β) : Prop :=
  Akin (World.Behind start base) Fault.Sent f like x y

namespace Job.Repeats
variable {like : Renaming → α → β → Prop}

theorem fail {fault fault' : Fault} (other : ∀ e, fault ≠ .stopped (.raised e)) (other' : ∀ e, fault' ≠ .stopped (.raised e)) :
    Repeats start base f like (Job.fail fault : Job α) (Job.fail fault' : Job β) := .throw (.other other other')

theorem act {a : Act α} {b : Act β} (same : Act.Repeats start base f like a b) :
    Repeats start base f like (Job.act a) (Job.act b) :=
  fun v w behind => (same v.heap w.heap behind.heap).job (fun _ _ _ within heaps =>
    ⟨heaps, behind.registry.mono within, behind.evaluators, behind.problems⟩)

/-- What is read from corresponding heaps. -/
theorem look (k : Heap → α) (l : Heap → β) (same : ∀ h h', Heap.Behind start base f h h' → like f (k h) (l h')) :
    Repeats start base f like (do return k (← MonadState.get).heap) (do return l (← MonadState.get).heap) :=
  fun v w behind => .ok (.refl f) (same v.heap w.heap behind.heap) behind

theorem shown {v v' : Value} (sends : f.Sends v v') : Repeats start base f Whatever (Job.shown v) (Job.shown v') :=
  act ((Heap.Behind.housing start base).plain sends)

theorem quoted {v v' : Value} (sends : f.Sends v v') :
    Repeats start base f Whatever (Job.act (Act.quoted v)) (Job.act (Act.quoted v')) := by
  obtain ⟨covers, rfl⟩ := sends
  exact act ((Heap.Behind.housing start base).rendered (fun h h' renamed => renamed.quoted covers))

theorem report (message path message' path' : String) :
    Repeats start base f Whatever (Job.report message path) (Job.report message' path') :=
  fun v w behind => .ok (.refl f) trivial ⟨behind.heap, behind.registry, behind.evaluators, by simp⟩

/-! Parts of documents. -/

theorem entries? {v v' : Value} (sends : f.Sends v v') :
    Repeats start base f (fun g => Option.Rel (Entries.Sent g)) (Document.entries? v) (Document.entries? v') := by
  obtain ⟨covers, rfl⟩ := sends
  refine look v.entries? (v.rename f.map).entries? (fun h h' behind => ?_)
  obtain ⟨same, covered⟩ := behind.renamed.entries? covers
  rw [same]
  cases found : v.entries? h with
  | none => exact .none
  | some entries => exact .some ⟨covered entries found, rfl⟩

theorem isList {v v' : Value} (sends : f.Sends v v') :
    Repeats start base f (fun _ b c => c = b) (Document.isList v) (Document.isList v') := by
  obtain ⟨covers, rfl⟩ := sends
  refine look (fun h => (v.listItems? h).isSome) (fun h => ((v.rename f.map).listItems? h).isSome) (fun h h' behind => ?_)
  rw [(behind.renamed.listItems? covers).1, Option.isSome_map]

theorem isTrue {v v' : Value} (sends : f.Sends v v') :
    Repeats start base f (fun _ b c => c = b) (Document.isTrue v) (Document.isTrue v') := by
  obtain ⟨covers, rfl⟩ := sends
  exact look v.truth (v.rename f.map).truth (fun h h' behind => behind.renamed.truth covers)

theorem optionalPart {v v' : Value} (sends : f.Sends v v') (name : String) :
    Repeats start base f Renaming.Sends (Document.optionalPart v name) (Document.optionalPart v' name) := by
  refine (entries? sends).bind (fun g found found' _ same => .pure ?_)
  cases same with
  | none => exact nothing_sent g
  | some entries => exact entries.valueOf name

theorem single (name : String) {v v' : Value} (sends : f.Sends v v') :
    Repeats start base f Renaming.Sends (Document.single name v) (Document.single name v') := by
  obtain ⟨covers, rfl⟩ := sends
  have one : Entries.CoveredBy #[(.str name, v)] f := by
    intro entry member
    obtain rfl : entry = (.str name, v) := by simpa using member
    exact ⟨Value.isBare.covers (v := .str name) rfl f, covers⟩
  have made := (Heap.Behind.housing start base).newDict one
  have same : Entries.rename #[(.str name, v)] f.map = #[(.str name, v.rename f.map)] := by
    simp [Entries.rename, Script.Entry.rename, Value.rename]
  rw [same] at made
  exact act made

/-! Checks. -/

theorem checkVersion {v v' : Value} (sends : f.Sends v v') :
    Repeats start base f Whatever (Document.checkVersion v) (Document.checkVersion v') := by
  refine (isTrue sends).bind (fun g b c within same => ?_)
  subst same
  obtain ⟨covers, rfl⟩ := sends
  cases c with
  | false => exact report _ _ _ _
  | true =>
    have classed : Repeats start base g Whatever
        (do Job.report s!"'version' field must be a string, got {v.className (← MonadState.get).heap}" : Job Unit)
        (do Job.report s!"'version' field must be a string, got {(v.rename f.map).className (← MonadState.get).heap}" :
          Job Unit) :=
      Akin.get.bind (fun _ _ _ _ _ => report _ _ _ _)
    cases v with
    | str s =>
      simp only [Value.rename, Bool.not_true, Bool.false_eq_true, if_false]
      split
      · exact report _ _ _ _
      · exact .pure trivial
    | _ => exact classed

theorem isNamed_sent {v v' : Value} (sends : f.Sends v v') (names : List String) :
    Document.isNamed names v' = Document.isNamed names v := by
  obtain ⟨-, rfl⟩ := sends
  cases v <;> rfl

theorem checkFields (names : List String) (text path path' : String) {row row' : List (Value × Value)}
    (sent : List.Forall₂ (Script.Entry.Sent f) row row') :
    Repeats start base f Whatever (Document.checkFields names text path row) (Document.checkFields names text path' row') := by
  induction row generalizing row' f with
  | nil =>
    cases sent
    exact .pure trivial
  | cons entry rest ih =>
    cases sent with
    | @cons _ entry' _ _ first others =>
      have onward (g : Renaming) (within : f.Within g) := ih (f := g) (others.imp (fun _ _ same => same.mono within))
      obtain ⟨key, v⟩ := entry
      obtain ⟨key', v'⟩ := entry'
      simp only [Document.checkFields, isNamed_sent first.key]
      split
      · exact (shown first.key).bind (fun g _ _ within _ =>
        (report _ _ _ _).bind (fun k _ _ more _ => onward k (within.trans more)))
      · exact onward f (.refl f)

/-- Compiling a source, which may fail. -/
theorem compile (source : String) :
    Repeats start base f (fun _ r r' => r' = r ∧ ∀ fault, r = .error fault → ∀ e, fault ≠ .stopped (.raised e))
      (Job.attempt (Job.compile source)) (Job.attempt (Job.compile source)) := by
  intro v w behind
  obtain ⟨v', sound, heap, registry, problems, ran⟩ := Job.compile_sound behind.evaluators.1 source
  obtain ⟨w', sound', heap', registry', problems', ran'⟩ := Job.compile_sound behind.evaluators.2 source
  have after : World.Behind start base f v' w' := by
    refine ⟨?_, ?_, ⟨sound, sound'⟩, ?_⟩
    · rw [heap, heap']
      exact behind.heap
    · rw [registry, registry']
      exact behind.registry
    · rw [problems, problems']
      exact behind.problems
  simp only [Job.attempt, ran, ran']
  cases Script.compile source with
  | ok program => exact .ok (.refl f) ⟨rfl, fun _ same => by cases same⟩ after
  | error fault =>
    refine .ok (.refl f) ⟨rfl, fun fault' same => ?_⟩ after
    cases same
    exact Job.Matches.refusal_other source fault

theorem checkHandler (path path' : String) {v v' : Value} (sends : f.Sends v v') :
    Repeats start base f Whatever (Document.checkHandler path v) (Document.checkHandler path' v') := by
  obtain ⟨covers, rfl⟩ := sends
  cases v with
  | str source =>
    simp only [Value.rename, Document.checkHandler]
    split
    · exact report _ _ _ _
    · refine (compile source).bind (fun g r r' within answer => ?_)
      obtain ⟨rfl, other⟩ := answer
      split
      · exact .pure trivial
      · exact report _ _ _ _
      · exact fail (other _ rfl) (other _ rfl)
  | _ => exact report _ _ _ _

theorem definition {a : Addr} (there : f.domain a) (new : start.objects.size ≤ a) {id id' config config' : Value}
    (named : f.Sends id id') (sends : f.Sends config config') :
    Repeats start base f Renaming.Sends (Document.definition a id config) (Document.definition (f.map a) id' config') := by
  obtain ⟨covers, rfl⟩ := sends
  by_cases text : ∃ source, config = .str source
  · obtain ⟨source, rfl⟩ := text
    refine (single "handler" ⟨covers, rfl⟩).bind (fun g made made' within sends => ?_)
    have inside := within a there
    refine (show Repeats start base g Whatever _ _ from ?_).bind (fun k _ _ more _ => .pure (sends.mono more))
    refine act ?_
    rw [← inside.2]
    refine ((Heap.Behind.housing start base).object inside.1).bind (fun k o o' more found => ?_)
    obtain ⟨covered, rfl⟩ := found
    cases o with
    | dict entries =>
      have covered := Entries.coveredBy_iff.mp covered
      have key := named.mono (within.trans more)
      have value := sends.mono more
      have written := Entries.coveredBy_iff.mpr (Entries.insert_covered covered key.1 value.1)
      have same : Script.Object.dict (Entries.insert (Entries.rename entries k.map) (id.rename k.map) (made.rename k.map)) =
        (Script.Object.dict (Entries.insert entries id made)).rename k.map := congrArg _ (Entries.insert_rename covered key.1)
      rw [key.2, value.2, ← (more a inside.1).2]
      have writes : Act.Repeats start base k Whatever _ _ := Act.Repeats.write (more a inside.1).1 new written
      rw [← same] at writes
      exact writes
    | _ => exact .pure trivial
  · have other : f.Sends config (config.rename f.map) := ⟨covers, rfl⟩
    cases config with
    | str source => exact absurd ⟨source, rfl⟩ text
    | _ => exact .pure other

/-- The checks of the definition of a step, whose entries are known. -/
theorem checkEntries (path path' : String) {entries entries' : Entries} (sent : Entries.Sent f entries entries') :
    Repeats start base f Whatever (do
      Document.checkFields Document.stepFields "unknown field" path entries.toList
      Document.checkHandler path (Document.valueOf entries "handler")
      match Entries.named? entries "globals" with
      | none => return ()
      | some globals =>
        if (← Document.entries? globals).isNone then Job.report "'globals' must be a dictionary" path : Job Unit) (do
      Document.checkFields Document.stepFields "unknown field" path' entries'.toList
      Document.checkHandler path' (Document.valueOf entries' "handler")
      match Entries.named? entries' "globals" with
      | none => return ()
      | some globals =>
        if (← Document.entries? globals).isNone then Job.report "'globals' must be a dictionary" path' : Job Unit) := by
  refine (checkFields _ _ _ _ sent.row).bind (fun g _ _ within _ => ?_)
  have sent := sent.mono within
  refine (checkHandler _ _ (sent.valueOf "handler")).bind (fun k _ _ more _ => ?_)
  have found := (sent.mono more).named? "globals"
  generalize Entries.named? entries "globals" = x, Entries.named? entries' "globals" = y at found
  cases found with
  | none => exact .pure trivial
  | some sends =>
    refine (entries? sends).bind (fun _ _ _ _ same => ?_)
    cases same with
    | none => exact report _ _ _ _
    | some => exact .pure trivial

theorem checkStep {a : Addr} (there : f.domain a) (new : start.objects.size ≤ a) {entry entry' : Value × Value}
    (sent : Script.Entry.Sent f entry entry') :
    Repeats start base f Whatever (Document.checkStep a entry.1 entry.2) (Document.checkStep (f.map a) entry'.1 entry'.2) := by
  obtain ⟨id, config⟩ := entry
  obtain ⟨id', config'⟩ := entry'
  obtain ⟨named, sends⟩ := sent
  refine (shown named).bind (fun g s s' within _ => ?_)
  have inside := within a there
  rw [← inside.2]
  have named := named.mono within
  obtain ⟨covers, same⟩ := named
  have unnamed {v u : Value} (sends : g.Sends v u) : Repeats start base g Whatever
      (do Job.report s!"Step id must be a non-empty string, got {← Job.act (Act.quoted v)}" : Job Unit)
      (do Job.report s!"Step id must be a non-empty string, got {← Job.act (Act.quoted u)}" : Job Unit) :=
    (quoted sends).bind (fun _ _ _ _ _ => report _ _ _ _)
  by_cases text : ∃ name, id = .str name
  · obtain ⟨name, rfl⟩ := text
    obtain rfl : id' = .str name := same
    dsimp only
    split
    · exact report _ _ _ _
    · refine (definition inside.1 new ⟨covers, rfl⟩ (sends.mono within)).bind (fun k made made' more sends => ?_)
      refine (entries? sends).bind (fun l found found' last same => ?_)
      cases same with
      | none => exact report _ _ _ _
      | some entries => exact checkEntries _ _ entries
    · next other => exact absurd rfl (other name)
  · subst same
    cases id with
    | str name => exact absurd ⟨name, rfl⟩ text
    | _ => exact unnamed ⟨covers, rfl⟩

theorem checkSteps {v v' : Value} (sends : f.Sends v v') :
    Repeats {} base f Whatever (Document.checkSteps v) (Document.checkSteps v') := by
  refine (entries? sends).bind (fun g found found' within same => ?_)
  obtain ⟨covers, rfl⟩ := sends
  cases same with
  | none => cases v <;> exact report _ _ _ _
  | some entries =>
    cases v with
    | ref a =>
      have there := Renaming.covers_ref.mp covers
      refine Akin.forM (fun same within => same.mono within) entries.row (fun k entry entry' more sent => ?_)
      have inside := (within.trans more) a there
      have checked : Repeats {} base k Whatever _ _ := checkStep inside.1 (show Array.size #[] ≤ a from Nat.zero_le a) sent
      rw [inside.2] at checked
      exact checked
    | _ => exact report _ _ _ _

theorem isSpace_sent {v v' : Value} (sends : f.Sends v v') : Document.isSpace v' = Document.isSpace v := by
  obtain ⟨-, rfl⟩ := sends
  cases v <;> rfl

theorem checkSchema {entry entry' : Value × Value} (sent : Script.Entry.Sent f entry entry') :
    Repeats start base f Whatever (Document.checkSchema entry.1 entry.2) (Document.checkSchema entry'.1 entry'.2) := by
  obtain ⟨id, config⟩ := entry
  obtain ⟨id', config'⟩ := entry'
  obtain ⟨named, sends⟩ := sent
  refine (shown named).bind (fun g s t within _ => ?_)
  have sends := sends.mono within
  refine (isList sends).bind (fun k b c more same => ?_)
  subst same
  have sends := sends.mono more
  cases c with
  | true => exact .pure trivial
  | false =>
    refine (entries? sends).bind (fun l found found' last same => ?_)
    cases same with
    | none => exact report _ _ _ _
    | @some entries entries' sent =>
      have spaced (m : Renaming) (after : l.Within m) : Repeats start base m Whatever
          (if !Document.isSpace (Document.valueOf entries "prefix") then
            Job.report "'prefix' must be a non-empty string without '/'" s!"schemas.{s}" else pure ())
          (if !Document.isSpace (Document.valueOf entries' "prefix") then
            Job.report "'prefix' must be a non-empty string without '/'" s!"schemas.{t}" else pure ()) := by
        rw [isSpace_sent ((sent.mono after).valueOf "prefix")]
        split
        · exact report _ _ _ _
        · exact .pure trivial
      refine (checkFields _ _ _ _ sent.row).bind (fun m _ _ after _ => ?_)
      refine (isList ((sent.mono after).valueOf "steps")).bind (fun n b c later same => ?_)
      subst same
      cases c with
      | true => exact spaced n (after.trans later)
      | false => exact (report _ _ _ _).bind (fun o _ _ final _ => spaced o ((after.trans later).trans final))

theorem checkSchemas {v v' : Value} (sends : f.Sends v v') :
    Repeats start base f Whatever (Document.checkSchemas v) (Document.checkSchemas v') := by
  refine (entries? sends).bind (fun g found found' within same => ?_)
  cases same with
  | none => exact report _ _ _ _
  | some entries => exact Akin.forM (fun same within => same.mono within) entries.row (fun _ _ _ _ sent => checkSchema sent)

theorem checkSection (name : String) {check check' : Value → Job Unit} {v v' : Value} (sends : f.Sends v v')
    (checked : ∀ g, f.Within g → Repeats start base g Whatever (check v) (check' v')) :
    Repeats start base f Whatever (Document.checkSection name check v) (Document.checkSection name check' v') := by
  refine (isTrue sends).bind (fun g b c within same => ?_)
  subst same
  cases c with
  | true => exact checked g within
  | false => exact report _ _ _ _

theorem conclude : Repeats start base f Whatever Document.conclude Document.conclude := by
  intro v w behind
  have either : w.problems.isEmpty = v.problems.isEmpty := by
    rw [Bool.eq_iff_iff, List.isEmpty_iff, List.isEmpty_iff]
    exact behind.problems.symm
  simp only [Document.conclude, Bind.bind, EStateM.bind, Script.get_result, either]
  split
  · exact .error (.refl f) (.other (fun _ => by simp) (fun _ => by simp)) behind
  · exact .ok (.refl f) trivial behind

/-- A document is valid wherever it is. -/
theorem validate {v v' : Value} (sends : f.Sends v v') :
    Repeats {} base f Whatever (Document.validate v) (Document.validate v') := by
  refine (entries? sends).bind (fun g found found' first same => ?_)
  cases same with
  | none => exact (report _ _ _ _).bind (fun _ _ _ _ _ => conclude)
  | some entries =>
    refine (checkVersion (entries.valueOf "version")).bind (fun k _ _ second _ => ?_)
    have entries := entries.mono second
    refine (checkFields _ _ _ _ entries.row).bind (fun l _ _ third _ => ?_)
    have entries := entries.mono third
    have within := (first.trans second).trans third
    refine (checkSection "steps" (entries.valueOf "steps") (fun m more =>
      checkSteps ((entries.mono more).valueOf "steps"))).bind (fun m _ _ fourth _ => ?_)
    refine (optionalPart (sends.mono (within.trans fourth)) "schemas").bind (fun n _ _ _ schemas => ?_)
    exact (checkSection "schemas" schemas (fun o more => checkSchemas (schemas.mono more))).bind (fun _ _ _ _ _ => conclude)

end Job.Repeats

end Workflow
