import Workflow.Proofs.Deeds

/-! Schemas read as structured programs. `Runs` is what a program does: items in sequence, gates as
conditionals, blocks as groups, loops with their test before every iteration, and signals that leave the
innermost loop or its iteration. It knows no cursor to go on from. `Resumes` is what is left of a program at
a position: the rest of the innermost row, and then the rest of every row around it.

An invocation that asks for input may be repeated on the spot with an answer. The answers that a run takes
are part of it; a run that takes none ends where it is asked. -/

namespace Workflow.Engine
open Script (Value)

/-- A position in a schema: a cursor for each row under way, from the outermost one inwards. -/
abbrev Position := List Nat

def Position.cursors (position : Position) : List Int := position.map Int.ofNat

@[simp] theorem Position.cursors_nil : Position.cursors [] = [] := rfl

@[simp] theorem Position.cursors_cons (cursor : Nat) (position : Position) :
    Position.cursors (cursor :: position) = (cursor : Int) :: Position.cursors position := rfl

@[simp] theorem Position.cursors_append (outer inner : Position) :
    Position.cursors (outer ++ inner) = Position.cursors outer ++ Position.cursors inner :=
  List.map_append

theorem Position.cursors_injective {position place : Position} (same : position.cursors = place.cursors) :
    position = place :=
  (List.map_inj_right (fun _ _ => Int.ofNat.inj)).mp same

theorem Position.cursors_nonneg (position : Position) : ∀ n ∈ position.cursors, 0 ≤ n := by
  intro n member
  obtain ⟨cursor, -, rfl⟩ := List.mem_map.mp member
  exact Int.natCast_nonneg cursor

theorem Position.exists_of_nonneg {cursors : List Int} (positive : ∀ n ∈ cursors, 0 ≤ n) :
    ∃ position : Position, position.cursors = cursors := by
  refine ⟨cursors.map Int.toNat, ?_⟩
  rw [Position.cursors, List.map_map]
  exact (List.map_congr_left (fun n member => Int.toNat_of_nonneg (positive n member))).trans cursors.map_id

/-- How a part of a program ends: it goes on behind, a signal leaves it, it halts at a position in it, or
it fails. -/
inductive Finish where
  | onward (p : Progress)
  | signalled (signal : Signal) (stepId : String)
  | halted (halt : Halt) (position : Position) (stepId : String)
  | failed (fault : Fault)

namespace Finish

/-- The end of the item at a cursor, as an end of its row. -/
def under (cursor : Nat) : Finish → Finish
  | .halted halt position stepId => .halted halt (cursor :: position) stepId
  | f => f

/-- What the end of its row makes of a block. Input that came this far is spent. -/
def ofBlock (p : Progress) : Finish → Finish
  | .onward q => .onward ⟨.nothing, lastStep p.stepId q.stepId⟩
  | .signalled signal stepId => .signalled signal (lastStep p.stepId stepId)
  | f => f

/-- With what a loop goes back to its test when an iteration ends, unless it is left. -/
def again? (p : Progress) : Finish → Option Progress
  | .onward q => some ⟨.nothing, lastStep p.stepId q.stepId⟩
  | .signalled .continueLoop stepId => some ⟨.nothing, lastStep p.stepId stepId⟩
  | _ => none

/-- What the end of an iteration makes of a loop that does not go back to its test. -/
def ofLoop (p : Progress) : Finish → Finish
  | .signalled .breakLoop stepId => .onward ⟨.nothing, lastStep p.stepId stepId⟩
  | f => f

/-- What a gate makes of its item, unless it is open. -/
def ofGate? (p : Progress) : Answer → Option Finish
  | .ok (.ok true) => none
  | .ok (.ok false) => some (.onward p)
  | .ok (.error halt) => some (.halted halt [] p.stepId)
  | .error fault => some (.failed fault)

/-- What the test of a loop makes of the loop, unless it holds. A test that halts does so behind the end of
the body, where nothing is left of the iteration. -/
def ofTest? (p : Progress) (size : Nat) : Answer → Option Finish
  | .ok (.ok true) => none
  | .ok (.ok false) => some (.onward ⟨.nothing, p.stepId⟩)
  | .ok (.error halt) => some (.halted halt [size] p.stepId)
  | .error fault => some (.failed fault)

def ofMarker (p : Progress) (signal : Signal) : Answer → Finish
  | .ok (.ok true) => .signalled signal p.stepId
  | .ok (.ok false) => .onward p
  | .ok (.error halt) => .halted halt [] p.stepId
  | .error fault => .failed fault

def ofOutcome (id : String) : Outcome → Finish
  | .done => .onward ⟨.nothing, id⟩
  | .awaits halt => .halted halt [] id
  | .failed halt => .halted halt [] id

def Leaves : Finish → Prop
  | .onward _ => False
  | _ => True

/-- What is told of the end of a row, if it can still be told. -/
def closing (level : Level) (here : Position) : Finish → Option (Event × View)
  | .onward p =>
    some (.ended level, { cursors := here.cursors, stepId := p.stepId, finished := level != .nested })
  | .signalled signal stepId =>
    some (.ended level, { cursors := here.cursors, stepId, finished := level != .nested
                          signal := some signal })
  | .halted halt position stepId =>
    some (.interrupted level, { cursors := here.cursors ++ position.cursors, stepId, halt := some halt })
  | .failed _ => none

end Finish

def Outcome.halt? : Outcome → Option Halt
  | .done => none
  | .awaits halt => some halt
  | .failed halt => some halt

end Workflow.Engine

namespace Workflow

def Item.gate? : Item → Option Condition
  | .step _ _ gate => gate
  | .block _ gate => gate
  | .loop _ _ gate => gate
  | .marker _ _ => none

end Workflow

namespace Workflow.Engine
open Script (Value)

/-- A world that programs run in: its host, what may come of telling it of an event, and how it may change
while an answer is waited for. -/
structure Scene (σ : Type) where
  host : Host σ
  told : Event → View → σ → Except Fault Unit → σ → Prop
  waited : σ → σ → Prop

/-- The world of a host. Nobody answers in it. -/
def Host.scene (host : Host σ) : Scene σ where
  host
  told event v w told w' := host.emit event v w = answered told w'
  waited _ _ := False

inductive Checks (s : Scene σ) (here : Position) (stepId : String) (role : Role) (c : Condition) :
    σ → List (Deed σ) → Answer → σ → Prop where
  | told {w passed w₁ w₂} (asked : s.host.check role c here.cursors w = .ok (.ok passed) w₁)
      (told : s.told (.checked role c passed) { cursors := here.cursors, stepId } w₁ (.ok ()) w₂) :
      Checks s here stepId role c w [.checked role c here.cursors w (.ok (.ok passed)) w₁] (.ok (.ok passed)) w₂
  | untold {w passed w₁ fault w₂} (asked : s.host.check role c here.cursors w = .ok (.ok passed) w₁)
      (untold : s.told (.checked role c passed) { cursors := here.cursors, stepId } w₁ (.error fault) w₂) :
      Checks s here stepId role c w [.checked role c here.cursors w (.ok (.ok passed)) w₁] (.error fault) w₂
  | halted {w halt w₁} (asked : s.host.check role c here.cursors w = .ok (.error halt) w₁) :
      Checks s here stepId role c w [.checked role c here.cursors w (.ok (.error halt)) w₁] (.ok (.error halt)) w₁
  | failed {w fault w₁} (asked : s.host.check role c here.cursors w = .error fault w₁) :
      Checks s here stepId role c w [.checked role c here.cursors w (.error fault) w₁] (.error fault) w₁

/-- Invoking a step on some input, and then on one answer after the other as long as it asks. -/
inductive Invokes (s : Scene σ) (here : Position) (id : String) (literal : Value) :
    Value → σ → List Value → List (Deed σ) → Finish → σ → Prop where
  | told {supplied w outcome w₁ w₂}
      (asked : s.host.invoke id literal supplied here.cursors w = .ok outcome w₁)
      (told : s.told (.step id) { cursors := here.cursors, stepId := id, halt := outcome.halt? } w₁
        (.ok ()) w₂) :
      Invokes s here id literal supplied w [] [.invoked id literal supplied here.cursors w (.ok outcome) w₁]
        (.ofOutcome id outcome) w₂
  | untold {supplied w outcome w₁ fault w₂}
      (asked : s.host.invoke id literal supplied here.cursors w = .ok outcome w₁)
      (untold : s.told (.step id) { cursors := here.cursors, stepId := id, halt := outcome.halt? } w₁
        (.error fault) w₂) :
      Invokes s here id literal supplied w [] [.invoked id literal supplied here.cursors w (.ok outcome) w₁]
        (.failed fault) w₂
  | failed {supplied w fault w₁}
      (asked : s.host.invoke id literal supplied here.cursors w = .error fault w₁) :
      Invokes s here id literal supplied w [] [.invoked id literal supplied here.cursors w (.error fault) w₁]
        (.failed fault) w₁
  | again {supplied w halt w₁ w₂ w₃ answer answers ds f w₄}
      (asked : s.host.invoke id literal supplied here.cursors w = .ok (.awaits halt) w₁)
      (told : s.told (.step id) { cursors := here.cursors, stepId := id, halt := some halt } w₁
        (.ok ()) w₂)
      (waited : s.waited w₂ w₃) (rest : Invokes s here id literal answer w₃ answers ds f w₄) :
      Invokes s here id literal supplied w (answer :: answers)
        (.invoked id literal supplied here.cursors w (.ok (.awaits halt)) w₁ :: ds) f w₄

inductive Closes (s : Scene σ) (level : Level) (here : Position) : Finish → σ → Finish → σ → Prop where
  | told {f event v w w'} (closing : f.closing level here = some (event, v))
      (told : s.told event v w (.ok ()) w') : Closes s level here f w f w'
  | untold {f event v w fault w'} (closing : f.closing level here = some (event, v))
      (untold : s.told event v w (.error fault) w') : Closes s level here f w (.failed fault) w'
  | failed {fault w} : Closes s level here (.failed fault) w (.failed fault) w

inductive Task where
  /-- The rest of a row, from the item at a cursor on. -/
  | row (cursor : Nat) (items : List Item) (p : Progress)
  /-- The rest of a row behind the item at a cursor, which ended in some way. -/
  | rest (cursor : Nat) (items : List Item) (f : Finish)
  | item (i : Item) (p : Progress)
  /-- An item whose gate, if it has one, holds. -/
  | inside (i : Item) (p : Progress)
  /-- A whole row, whose start and end are told of. -/
  | body (level : Level) (items : List Item) (supplied : Value)
  /-- A loop before its test. -/
  | loop (test : Condition) (items : List Item) (p : Progress)
  /-- A loop behind an iteration that ended in some way. -/
  | rounds (test : Condition) (items : List Item) (p : Progress) (f : Finish)

/-- What a part of a program does at a position: the answers that it takes, its deeds, how it ends, and the
world that it leaves. -/
inductive Runs (s : Scene σ) :
    Position → Task → σ → List Value → List (Deed σ) → Finish → σ → Prop where
  | row_end {here cursor p w} : Runs s here (.row cursor [] p) w [] [] (.onward p) w
  | row {here cursor i items p w as ds f w₁ bs es g w₂}
      (first : Runs s (here ++ [cursor]) (.item i p) w as ds f w₁)
      (rest : Runs s here (.rest cursor items f) w₁ bs es g w₂) :
      Runs s here (.row cursor (i :: items) p) w (as ++ bs) (ds ++ es) g w₂
  | rest {here cursor items p w as ds f w'} (next : Runs s here (.row (cursor + 1) items p) w as ds f w') :
      Runs s here (.rest cursor items (.onward p)) w as ds f w'
  | leave {here cursor items f w} (leaves : f.Leaves) :
      Runs s here (.rest cursor items f) w [] [] (f.under cursor) w
  | free {here i p w as ds f w'} (free : i.gate? = none)
      (inside : Runs s here (.inside i p) w as ds f w') : Runs s here (.item i p) w as ds f w'
  | opened {here i p c w ds w₁ as es f w₂} (gated : i.gate? = some c)
      (gate : Checks s here p.stepId .gate c w ds (.ok (.ok true)) w₁)
      (inside : Runs s here (.inside i p) w₁ as es f w₂) :
      Runs s here (.item i p) w as (ds ++ es) f w₂
  | closed {here i p c w ds answer f w₁} (gated : i.gate? = some c)
      (gate : Checks s here p.stepId .gate c w ds answer w₁) (closed : Finish.ofGate? p answer = some f) :
      Runs s here (.item i p) w [] ds f w₁
  | marker {here signal test p w ds answer w'}
      (marker : Checks s here p.stepId (.marker signal) test w ds answer w') :
      Runs s here (.inside (.marker signal test) p) w [] ds (.ofMarker p signal answer) w'
  | step {here id literal gate p w as ds f w'}
      (step : Invokes s here id literal p.supplied w as ds f w') :
      Runs s here (.inside (.step id literal gate) p) w as ds f w'
  | block {here items gate p w as ds f w'} (body : Runs s here (.body .nested items p.supplied) w as ds f w') :
      Runs s here (.inside (.block items gate) p) w as ds (f.ofBlock p) w'
  | loop {here test items gate p w as ds f w'} (loop : Runs s here (.loop test items p) w as ds f w') :
      Runs s here (.inside (.loop test items gate) p) w as ds f w'
  | tested {here test items p w ds answer f w'} (tested : Checks s here p.stepId .test test w ds answer w')
      (ended : Finish.ofTest? p items.length answer = some f) :
      Runs s here (.loop test items p) w [] ds f w'
  | iteration {here test items p w ds w₁ as es f w₂ bs fs g w₃}
      (tested : Checks s here p.stepId .test test w ds (.ok (.ok true)) w₁)
      (body : Runs s here (.body .nested items p.supplied) w₁ as es f w₂)
      (rounds : Runs s here (.rounds test items p f) w₂ bs fs g w₃) :
      Runs s here (.loop test items p) w (as ++ bs) (ds ++ es ++ fs) g w₃
  | again {here test items p f q w as ds g w'} (again : f.again? p = some q)
      (loop : Runs s here (.loop test items q) w as ds g w') :
      Runs s here (.rounds test items p f) w as ds g w'
  | ended {here test items p f w} (ended : f.again? p = none) :
      Runs s here (.rounds test items p f) w [] [] (f.ofLoop p) w
  | body {here level items supplied w w₁ as ds f w₂ g w₃}
      (told : s.told (.opened level) { cursors := here.cursors ++ [0] } w (.ok ()) w₁)
      (row : Runs s here (.row 0 items ⟨supplied, ""⟩) w₁ as ds f w₂)
      (closes : Closes s level here f w₂ g w₃) : Runs s here (.body level items supplied) w as ds g w₃
  | body_untold {here level items supplied w fault w'}
      (untold : s.told (.opened level) { cursors := here.cursors ++ [0] } w (.error fault) w') :
      Runs s here (.body level items supplied) w [] [] (.failed fault) w'

/-- What is left of a part of a program at a position in it. -/
inductive Resumes (s : Scene σ) :
    Position → Task → Position → σ → List Value → List (Deed σ) → Finish → σ → Prop where
  | row {here cursor items p w as ds f w'} (row : Runs s here (.row cursor items p) w as ds f w') :
      Resumes s here (.row cursor items p) [cursor] w as ds f w'
  | later {here cursor i items p next deeper w as ds f w'} (later : cursor < next)
      (row : Resumes s here (.row (cursor + 1) items p) (next :: deeper) w as ds f w') :
      Resumes s here (.row cursor (i :: items) p) (next :: deeper) w as ds f w'
  | item {here cursor i items p next deeper w as ds f w₁ bs es g w₂}
      (item : Resumes s (here ++ [cursor]) (.item i p) (next :: deeper) w as ds f w₁)
      (rest : Runs s here (.rest cursor items f) w₁ bs es g w₂) :
      Resumes s here (.row cursor (i :: items) p) (cursor :: next :: deeper) w (as ++ bs) (ds ++ es) g w₂
  | block {here items gate p next deeper w as ds f w'}
      (body : Resumes s here (.body .nested items p.supplied) (next :: deeper) w as ds f w') :
      Resumes s here (.item (.block items gate) p) (next :: deeper) w as ds (f.ofBlock p) w'
  | loop {here test items gate p next deeper w as ds f w₁ bs es g w₂}
      (body : Resumes s here (.body .nested items p.supplied) (next :: deeper) w as ds f w₁)
      (rounds : Runs s here (.rounds test items p f) w₁ bs es g w₂) :
      Resumes s here (.item (.loop test items gate) p) (next :: deeper) w (as ++ bs) (ds ++ es) g w₂
  | body {here level items supplied next deeper w w₁ as ds f w₂ g w₃}
      (told : s.told (.opened level) { cursors := here.cursors ++ Position.cursors (next :: deeper) } w
        (.ok ()) w₁)
      (row : Resumes s here (.row 0 items ⟨supplied, ""⟩) (next :: deeper) w₁ as ds f w₂)
      (closes : Closes s level here f w₂ g w₃) :
      Resumes s here (.body level items supplied) (next :: deeper) w as ds g w₃
  | body_untold {here level items supplied next deeper w fault w'}
      (untold : s.told (.opened level) { cursors := here.cursors ++ Position.cursors (next :: deeper) } w
        (.error fault) w') :
      Resumes s here (.body level items supplied) (next :: deeper) w [] [] (.failed fault) w'

end Workflow.Engine
