import Workflow.Proofs.Portable
import Workflow.Proofs.Requests

/-! Calls that go on elsewhere. A call that halted goes on from the same state in another world, with the same schemas and
steps at other addresses, and if all that it does is portable it comes to the same there. -/

namespace Workflow
open Script (Act Entries Heap Renaming Value)

/-! Positions. -/

section
variable {f : Renaming}

theorem Items.Sent.getElem? {items items' : List Item} (sent : Items.Sent f items items') (i : Nat) :
    (items[i]? = none ∧ items'[i]? = none) ∨
      ∃ a b, items[i]? = some a ∧ items'[i]? = some b ∧ Item.Sent f a b := by
  induction items generalizing items' i with
  | nil =>
    cases sent
    exact .inl ⟨rfl, rfl⟩
  | cons a rest ih =>
    cases sent with
    | cons first others =>
      cases i with
      | zero => exact .inr ⟨_, _, rfl, rfl, first⟩
      | succ i => exact ih others i

theorem itemAt?_sent {items items' : List Item} (sent : Items.Sent f items items') (cursor : Int) :
    (itemAt? items cursor = none ∧ itemAt? items' cursor = none) ∨
      ∃ a b, itemAt? items cursor = some a ∧ itemAt? items' cursor = some b ∧ Item.Sent f a b := by
  unfold itemAt?
  rw [sent.length]
  split
  · split
    · exact .inl ⟨rfl, rfl⟩
    · exact sent.getElem? _
  · exact sent.getElem? _

theorem Item.Sent.row? {a b : Item} (sent : Item.Sent f a b) :
    (a.row? = none ∧ b.row? = none) ∨
      ∃ row row' isLoop, a.row? = some (row, isLoop) ∧ b.row? = some (row', isLoop) ∧ Items.Sent f row row' := by
  cases sent with
  | step sends opens => exact .inl ⟨rfl, rfl⟩
  | block inside opens => exact .inr ⟨_, _, _, rfl, rfl, inside⟩
  | loop condition inside opens => exact .inr ⟨_, _, _, rfl, rfl, inside⟩
  | marker condition => exact .inl ⟨rfl, rfl⟩

theorem checkCursors_sent {items items' : List Item} (sent : Items.Sent f items items') (inLoop : Bool) (depth : Nat)
    (cursors : List Int) : checkCursors items' inLoop depth cursors = checkCursors items inLoop depth cursors := by
  induction cursors generalizing items items' inLoop depth with
  | nil => rfl
  | cons cursor deeper ih =>
    unfold checkCursors
    rw [sent.length]
    obtain ⟨none, none'⟩ | ⟨a, b, found, found', item⟩ := itemAt?_sent sent cursor
    · simp only [none, none']
    · simp only [found, found']
      obtain ⟨none, none'⟩ | ⟨row, row', isLoop, here, here', inside⟩ := item.row?
      · simp only [none, none']
      · simp only [here, here', ih inside]

theorem checkPosition_sent {items items' : Schema} (sent : Items.Sent f items items') (position : List Int) :
    Schema.checkPosition items' position = Schema.checkPosition items position := by
  unfold Schema.checkPosition
  rw [checkCursors_sent sent]

end

/-! Executors. -/

/-- Corresponding calls that came to the same. -/
structure Execution.Sent (f : Renaming) (e e' : Execution) : Prop where
  call : Call.Sent f e.call e'.call
  report : Engine.Report.Sent f e.report e'.report

/-- Corresponding places to begin at. -/
structure Beginning.Sent (f : Renaming) (b b' : Beginning) : Prop where
  call : Call.Sent f b.call b'.call
  items : Items.Sent f b.items b'.items
  position : b'.position = b.position

namespace Executor
variable {audience : Audience} (heeds : audience.Heeds World.Adds) {f : Renaming}

open Job.Matches in
theorem beginAt_matches {call call' : Call} (sent : Call.Sent f call call') {items items' : Schema}
    (schema : Items.Sent f items items')
    (position : List Int) : Job.Matches f Beginning.Sent (beginAt call items position) (beginAt call' items' position) := by
  obtain ⟨id, named, named'⟩ := sent.named
  rw [beginAt, beginAt, checkPosition_sent schema, named, named']
  refine (shown (Value.isBare.sends (v := .str id) rfl f)).bind (fun g name name' within _ => ?_)
  cases items.checkPosition position with
  | ok => exact (log _ _ _ _ _ _).bind (fun k _ _ more _ =>
      .pure ⟨sent.mono (within.trans more), schema.mono (within.trans more), rfl⟩)
  | error fault =>
    cases fault with
    | beforeStart depth => exact act (.fail _ _)
    | _ => exact fail (fun _ => by simp) (fun _ => by simp)

include heeds

/-- A traversal comes to the same elsewhere if all that it does is portable. -/
theorem run_carried {call call' : Call} (sent : Call.Sent f call call') (level : Engine.Level) {items items' : Schema}
    (schema : Items.Sent f items items') (position : List Int) {input input' : Value} (given : f.Sends input input') (fuel : Nat)
    {v w : World} (renamed : World.Renamed f v w)
    (portable : ∀ d ∈ Engine.deeds (call.host audience) fuel level items position input v, d.Portable call) :
    Carried World.Renamed Fault.Sent f Execution.Sent (run audience call level items position input fuel v)
      (run audience call' level items' position input' fuel w) := by
  have alike := Engine.run_alike (sent.hosts heeds) fuel level schema position given (v, []) w renamed
  obtain ⟨a, v', plain, noting⟩ := Engine.run_recorded (call.host audience) fuel level items position input v
  rw [noting] at alike
  obtain ⟨d, member, unfit⟩ | carried := alike
  · exact absurd (portable d (by cases a <;> exact member)) unfit
  · have ran : Carried World.Renamed Fault.Sent f Engine.Report.Sent
        (Engine.run (call.host audience) fuel level items position input v)
        (Engine.run (call'.host audience) fuel level items' position input' w) := by
      rw [plain]
      generalize Engine.run (call'.host audience) fuel level items' position input' w = ended at carried
      cases a with
      | ok report =>
        cases carried with
        | ok within values worlds => exact .ok within values worlds
      | error fault =>
        cases carried with
        | error within misses worlds => exact .error within misses worlds
    exact ran.bind (fun g r r' v' w' within report worlds _ => .ok (.refl g) ⟨sent.mono within, report⟩ worlds)

end Executor

/-- A request comes to the same as another one of the same level that begins in the same way elsewhere, if all that it does is
portable. -/
theorem Request.perform_carried {audience : Audience} (heeds : audience.Heeds World.Adds) {f : Renaming} {r r' : Request}
    {call : Call} (opened : Job.Matches f Beginning.Sent r.opening r'.opening) (level : r'.level = r.level)
    (called : ∀ b w w', r.opening w = .ok b w' → b.call = call) {input input' : Value} (given : f.Sends input input') (fuel : Nat)
    {v w : World} (renamed : World.Renamed f v w)
    (portable : ∀ d ∈ Engine.deedsOf (r.moments audience input fuel v), d.Portable call) :
    Carried World.Renamed Fault.Sent f Execution.Sent (r.perform audience input fuel v) (r'.perform audience input' fuel w) := by
  rw [Request.perform_eq, Request.perform_eq, level]
  refine (opened v w renamed).bind (fun g b b' v₁ w₁ within begins worlds begun => ?_)
  have each : ∀ d ∈ Engine.deeds (b.call.host audience) fuel r.level b.items b.position input v₁, d.Portable b.call := by
    obtain ⟨_, _, -, -, noted, -⟩ := Engine.run_observed (b.call.host audience) fuel r.level b.items b.position input v₁
    intro d member
    rw [← noted] at member
    rw [called b v v₁ begun]
    refine portable d ?_
    rw [Request.moments, begun]
    exact member
  rw [begins.position]
  exact Executor.run_carried heeds begins.call r.level begins.items b.position (given.mono within) fuel worlds each

theorem Request.opening_start {call : Call} {b : Beginning} {w w' : World} (begun : (Request.start call).opening w = .ok b w') :
    b.call = call := by
  obtain ⟨_, _, -, begun⟩ := Engine.Work.bind_ok begun
  obtain ⟨_, _, -, begun⟩ := Engine.Work.bind_ok begun
  obtain ⟨_, _, -, begun⟩ := Engine.Work.bind_ok begun
  cases begun
  rfl

/-- A schema that is started on corresponding contexts comes to the same. -/
theorem Request.start_carried {audience : Audience} (heeds : audience.Heeds World.Adds) {f : Renaming} {call call' : Call}
    (sent : Call.Sent f call call') {input input' : Value} (given : f.Sends input input') (fuel : Nat)
    {v w : World} (renamed : World.Renamed f v w)
    (portable : ∀ d ∈ Engine.deedsOf ((Request.start call).moments audience input fuel v), d.Portable call) :
    Carried World.Renamed Fault.Sent f Execution.Sent ((Request.start call).perform audience input fuel v)
      ((Request.start call').perform audience input' fuel w) := by
  have opened : Job.Matches f Beginning.Sent (Request.start call).opening (Request.start call').opening := by
    obtain ⟨id, named, named'⟩ := sent.named
    simp only [Request.opening, named, named']
    refine (Job.Matches.schema id).bind (fun g found found' within registered => ?_)
    refine (Job.Matches.shown (Value.isBare.sends (v := .str id) rfl g)).bind (fun k name name' more _ => ?_)
    refine (Job.Matches.log _ _ _ _ _ _).bind (fun l _ _ last _ => ?_)
    exact .pure ⟨sent.mono ((within.trans more).trans last), registered.items.mono (more.trans last), rfl⟩
  exact perform_carried heeds opened rfl (fun b w w' => opening_start) given fuel renamed portable

theorem Request.opening_goOn {e : Execution} {b : Beginning} {w w' : World} (begun : (Request.goOn e).opening w = .ok b w') :
    b.call = e.call := by
  obtain ⟨found, _, -, begun⟩ := Engine.Work.bind_ok begun
  rw [(Executor.beginAt_ok begun).1]

/-- A call that goes on where it stopped comes to the same as one that goes on from the same state elsewhere, if all that it
does is portable. -/
theorem Request.goOn_carried {audience : Audience} (heeds : audience.Heeds World.Adds) {f : Renaming} {e : Execution}
    {id : String}
    (named : e.call.schema = .str id) {context : Value} (sends : f.Sends e.call.context context) (listener : Option Nat)
    {input input' : Value} (given : f.Sends input input') (fuel : Nat) {v w : World} (renamed : World.Renamed f v w)
    (portable : ∀ d ∈ Engine.deedsOf ((Request.goOn e).moments audience input fuel v), d.Portable e.call) :
    Carried World.Renamed Fault.Sent f Execution.Sent ((Request.goOn e).perform audience input fuel v)
      ((Request.resume (.str id) (pure ⟨context, e.view.cursors⟩) listener).perform audience input' fuel w) := by
  have opened : Job.Matches f Beginning.Sent (Request.goOn e).opening
      (Request.resume (.str id) (pure ⟨context, e.view.cursors⟩) listener).opening := by
    simp only [Request.opening, named, pure_bind]
    refine (Job.Matches.schema id).bind (fun g found found' within registered => ?_)
    have call : Call.Sent g e.call { schema := .str id, context, listener } := ⟨⟨id, named, rfl⟩, sends.mono within⟩
    exact Executor.beginAt_matches call registered.items _
  exact perform_carried heeds opened rfl (fun b w w' => opening_goOn) given fuel renamed portable

end Workflow
