import Workflow.Proofs.Keeping
import Workflow.Proofs.Performance
import Workflow.Proofs.Renamings

/-! Traversals that do alike. Two hosts whose objects lie at different addresses make traversals that come to the same,
apart from addresses, if they do so for each condition, each step and each tale. -/

namespace Workflow
open Script (Renaming Value)

/-! Schemas at other addresses. -/

section
variable {f g : Renaming}

theorem nothing_sent (f : Renaming) : f.Sends .nothing .nothing := Value.isBare.sends (v := .nothing) rfl f

/-- A condition becomes another one. -/
inductive Condition.Sent (f : Renaming) : Condition → Condition → Prop where
  | source (text : String) : Sent f (.source text) (.source text)
  | call {v v'} (sends : f.Sends v v') : Sent f (.call v) (.call v')

theorem Condition.Sent.mono {c d : Condition} (sent : Condition.Sent f c d) (within : f.Within g) : Condition.Sent g c d := by
  cases sent with
  | source text => exact .source text
  | call sends => exact .call (sends.mono within)

inductive Gate.Sent (f : Renaming) : Option Condition → Option Condition → Prop where
  | none : Sent f none none
  | some {c d} (condition : Condition.Sent f c d) : Sent f (some c) (some d)

mutual

inductive Item.Sent (f : Renaming) : Item → Item → Prop where
  | step {id input input' gate gate'} (sends : f.Sends input input') (opens : Gate.Sent f gate gate') :
      Item.Sent f (.step id input gate) (.step id input' gate')
  | block {items items' gate gate'} (inside : Items.Sent f items items') (opens : Gate.Sent f gate gate') :
      Item.Sent f (.block items gate) (.block items' gate')
  | loop {test test' items items' gate gate'} (condition : Condition.Sent f test test') (inside : Items.Sent f items items')
      (opens : Gate.Sent f gate gate') : Item.Sent f (.loop test items gate) (.loop test' items' gate')
  | marker {signal test test'} (condition : Condition.Sent f test test') :
      Item.Sent f (.marker signal test) (.marker signal test')

inductive Items.Sent (f : Renaming) : List Item → List Item → Prop where
  | nil : Items.Sent f [] []
  | cons {i i' rest rest'} (first : Item.Sent f i i') (others : Items.Sent f rest rest') : Items.Sent f (i :: rest) (i' :: rest')

end

theorem Gate.Sent.mono {gate gate' : Option Condition} (sent : Gate.Sent f gate gate') (within : f.Within g) :
    Gate.Sent g gate gate' := by
  cases sent with
  | none => exact .none
  | some condition => exact .some (condition.mono within)

/-- A gate that may be passed by. -/
theorem Gate.Sent.unless {gate gate' : Option Condition} (sent : Gate.Sent f gate gate') (b : Bool) :
    Gate.Sent f (if b then gate else Option.none) (if b then gate' else Option.none) := by
  cases b with
  | false => exact .none
  | true => exact sent

mutual

theorem Item.Sent.mono {i j : Item} (sent : Item.Sent f i j) (within : f.Within g) : Item.Sent g i j := by
  cases sent with
  | step sends opens => exact .step (sends.mono within) (opens.mono within)
  | block inside opens => exact .block (inside.mono within) (opens.mono within)
  | loop condition inside opens => exact .loop (condition.mono within) (inside.mono within) (opens.mono within)
  | marker condition => exact .marker (condition.mono within)

theorem Items.Sent.mono {items items' : List Item} (sent : Items.Sent f items items') (within : f.Within g) :
    Items.Sent g items items' := by
  cases sent with
  | nil => exact .nil
  | cons first others => exact .cons (first.mono within) (others.mono within)

end

theorem Items.Sent.length {items items' : List Item} (sent : Items.Sent f items items') : items'.length = items.length := by
  induction items generalizing items' with
  | nil =>
    cases sent
    rfl
  | cons i rest ih =>
    cases sent with
    | cons first others => rw [List.length_cons, List.length_cons, ih others]

end

section
variable {σ τ : Type} {f g : Renaming}

/-! Work that does alike. What is handled grows while the work goes on, and what was handled before stays as it was. -/

variable {ε : Type} {R : Renaming → σ → τ → Prop} {miss : Renaming → ε → ε → Prop}

/-- Two pieces of work come to the same, or fail in the same, and they leave corresponding worlds. -/
inductive Carried (R : Renaming → σ → τ → Prop) (miss : Renaming → ε → ε → Prop) (f : Renaming)
    (like : Renaming → α → β → Prop) : EStateM.Result ε σ α → EStateM.Result ε τ β → Prop where
  | ok {g a b v w} (within : f.Within g) (values : like g a b) (worlds : R g v w) :
      Carried R miss f like (.ok a v) (.ok b w)
  | error {g e e' v w} (within : f.Within g) (misses : miss g e e') (worlds : R g v w) :
      Carried R miss f like (.error e v) (.error e' w)

/-- Two pieces of work come to the same wherever they begin in corresponding worlds. -/
def Akin (R : Renaming → σ → τ → Prop) (miss : Renaming → ε → ε → Prop) (f : Renaming) (like : Renaming → α → β → Prop)
    (x : EStateM ε σ α) (y : EStateM ε τ β) : Prop := ∀ v w, R f v w → Carried R miss f like (x v) (y w)

variable {like : Renaming → α → β → Prop} {alike : Renaming → γ → δ → Prop}

theorem Carried.before {x : EStateM.Result ε σ α} {y : EStateM.Result ε τ β} (carried : Carried R miss g like x y)
    (within : f.Within g) : Carried R miss f like x y := by
  cases carried with
  | ok more values worlds => exact .ok (within.trans more) values worlds
  | error more misses worlds => exact .error (within.trans more) misses worlds

theorem Carried.bind {x : EStateM ε σ α} {y : EStateM ε τ β} {k : α → EStateM ε σ γ} {l : β → EStateM ε τ δ} {v : σ} {w : τ}
    (first : Carried R miss f like (x v) (y w))
    (rest : ∀ g a b v' w', f.Within g → like g a b → R g v' w' → x v = .ok a v' → Carried R miss g alike (k a v') (l b w')) :
    Carried R miss f alike ((x >>= k) v) ((y >>= l) w) := by
  simp only [Bind.bind, EStateM.bind]
  cases ran : x v with
  | ok a v' =>
    rw [ran] at first
    generalize y w = ended at first
    cases first with
    | ok within values worlds => exact (rest _ _ _ _ _ within values worlds ran).before within
  | error fault v' =>
    rw [ran] at first
    generalize y w = ended at first
    cases first with
    | error within misses worlds => exact .error within misses worlds

namespace Akin

theorem pure {a : α} {b : β} (values : like f a b) :
    Akin R miss f like (Pure.pure a : EStateM ε σ α) (Pure.pure b : EStateM ε τ β) :=
  fun _ _ worlds => .ok (.refl f) values worlds

theorem throw {e e' : ε} (misses : miss f e e') :
    Akin R miss f like (throwThe ε e : EStateM ε σ α) (throwThe ε e' : EStateM ε τ β) :=
  fun _ _ worlds => .error (.refl f) misses worlds

theorem get : Akin R miss f R (MonadState.get : EStateM ε σ σ) (MonadState.get : EStateM ε τ τ) :=
  fun _ _ worlds => .ok (.refl f) worlds worlds

theorem bind {x : EStateM ε σ α} {y : EStateM ε τ β} {k : α → EStateM ε σ γ} {l : β → EStateM ε τ δ}
    (first : Akin R miss f like x y) (rest : ∀ g a b, f.Within g → like g a b → Akin R miss g alike (k a) (l b)) :
    Akin R miss f alike (x >>= k) (y >>= l) :=
  fun v w worlds => (first v w worlds).bind (fun _ _ _ _ _ within values worlds _ => rest _ _ _ within values _ _ worlds)

end Akin

end

/-- Faults correspond if both are errors that were raised, and the same one, or none is. -/
inductive Fault.Sent (f : Renaming) : Fault → Fault → Prop where
  | raised {e e'} (sends : f.Sends e e') : Sent f (.stopped (.raised e)) (.stopped (.raised e'))
  | other {fault fault'} (other : ∀ e, fault ≠ .stopped (.raised e)) (other' : ∀ e, fault' ≠ .stopped (.raised e)) :
      Sent f fault fault'

/-- Nothing is asked of two results. -/
def Whatever (_ : Renaming) (_ : α) (_ : β) : Prop := True

namespace Engine

variable {σ τ : Type} {f g : Renaming} {R : Renaming → σ → τ → Prop}

/-! What a traversal handles, at other addresses. -/

/-- A halt and its values become another one. -/
structure Halt.Sent (f : Renaming) (a b : Halt) : Prop where
  error : f.Sends a.error b.error
  errors : f.Sends a.errors b.errors
  descriptor : f.Sends a.descriptor b.descriptor
  expires : f.Sends a.expires b.expires

theorem Halt.Sent.mono {a b : Halt} (sent : Halt.Sent f a b) (within : f.Within g) : Halt.Sent g a b :=
  ⟨sent.error.mono within, sent.errors.mono within, sent.descriptor.mono within, sent.expires.mono within⟩

inductive Outcome.Sent (f : Renaming) : Outcome → Outcome → Prop where
  | done : Sent f .done .done
  | awaits {a b} (halt : Halt.Sent f a b) : Sent f (.awaits a) (.awaits b)
  | failed {a b} (halt : Halt.Sent f a b) : Sent f (.failed a) (.failed b)

/-- The answer to a condition. -/
inductive Answered (f : Renaming) : Except Halt Bool → Except Halt Bool → Prop where
  | passed (b : Bool) : Answered f (.ok b) (.ok b)
  | halted {a b} (halt : Halt.Sent f a b) : Answered f (.error a) (.error b)

inductive Ending.Sent (f : Renaming) : Ending → Ending → Prop where
  | passed : Sent f .passed .passed
  | signalled (s : Signal) : Sent f (.signalled s) (.signalled s)
  | halted {a b} (halt : Halt.Sent f a b) (cursors : List Int) : Sent f (.halted a cursors) (.halted b cursors)

structure Report.Sent (f : Renaming) (a b : Report) : Prop where
  stepId : b.stepId = a.stepId
  ending : Ending.Sent f a.ending b.ending

structure Progress.Sent (f : Renaming) (a b : Progress) : Prop where
  stepId : b.stepId = a.stepId
  supplied : f.Sends a.supplied b.supplied

theorem Progress.Sent.mono {a b : Progress} (sent : Progress.Sent f a b) (within : f.Within g) : Progress.Sent g a b :=
  ⟨sent.stepId, sent.supplied.mono within⟩

inductive Verdict.Sent (f : Renaming) : Verdict → Verdict → Prop where
  | onward {p q} (progress : Progress.Sent f p q) : Sent f (.onward p) (.onward q)
  | leave {r s} (report : Report.Sent f r s) : Sent f (.leave r) (.leave s)

/-- A view and its halt become another one. -/
structure View.Sent (f : Renaming) (a b : View) : Prop where
  cursors : b.cursors = a.cursors
  stepId : b.stepId = a.stepId
  halt : (a.halt = none ∧ b.halt = none) ∨ ∃ k l, a.halt = some k ∧ b.halt = some l ∧ Halt.Sent f k l

/-- Two events are of one kind. -/
inductive Event.Sent : Event → Event → Prop where
  | same (event : Event) : Sent event event
  | checked (role : Role) (c d : Condition) (passed : Bool) : Sent (.checked role c passed) (.checked role d passed)

/-! Work that does alike, unless the first of two hosts gets lost: from then on nothing is asked of it. Once it is lost, it
stays so. -/

/-- Two pieces of work come to the same wherever they begin in corresponding worlds, unless the first one gets lost. -/
def AkinUnless (lost : σ → Prop) (R : Renaming → σ → τ → Prop) (f : Renaming) (like : Renaming → α → β → Prop)
    (x : Work σ α) (y : Work τ β) : Prop := ∀ v w, R f v w → lost (leftBy (x v)) ∨ Carried R Fault.Sent f like (x v) (y w)

/-- What is lost stays so. -/
def Stays (lost : σ → Prop) (v w : σ) : Prop := lost v → lost w

theorem Stays.lasting (lost : σ → Prop) : Lasting (Stays lost) where
  refl _ := id
  trans first second := second ∘ first

namespace AkinUnless
variable {lost : σ → Prop} {like : Renaming → α → β → Prop} {alike : Renaming → γ → δ → Prop}

theorem pure {a : α} {b : β} (values : like f a b) :
    AkinUnless lost R f like (Pure.pure a : Work σ α) (Pure.pure b : Work τ β) :=
  fun v w worlds => .inr (Akin.pure values v w worlds)

theorem throw {fault fault' : Fault} (misses : Fault.Sent f fault fault') :
    AkinUnless lost R f like (throwThe Fault fault : Work σ α) (throwThe Fault fault' : Work τ β) :=
  fun v w worlds => .inr (Akin.throw misses v w worlds)

theorem bind {x : Work σ α} {y : Work τ β} {k : α → Work σ γ} {l : β → Work τ δ} (first : AkinUnless lost R f like x y)
    (stays : ∀ a, Along (Stays lost) (k a)) (rest : ∀ g a b, f.Within g → like g a b → AkinUnless lost R g alike (k a) (l b)) :
    AkinUnless lost R f alike (x >>= k) (y >>= l) := by
  intro v w worlds
  have begun := first v w worlds
  simp only [Bind.bind, EStateM.bind]
  cases ran : x v with
  | ok a v' =>
    rw [ran] at begun
    generalize y w = ended at begun
    obtain gone | begun := begun
    · exact .inl (stays a v' gone)
    · cases begun with
      | ok within values worlds' => exact (rest _ _ _ within values _ _ worlds').imp_right (fun carried => carried.before within)
  | error fault v' =>
    rw [ran] at begun
    generalize y w = ended at begun
    obtain gone | begun := begun
    · exact .inl gone
    · cases begun with
      | error within misses worlds' => exact .inr (.error within misses worlds')

end AkinUnless

/-- A relation goes along with whatever a host does. -/
structure HostAlong (S : σ → σ → Prop) (host : Host σ) : Prop where
  check : ∀ role c place, Along S (host.check role c place)
  invoke : ∀ id literal supplied place, Along S (host.invoke id literal supplied place)
  emit : ∀ event v, Along S (host.emit event v)

/-! A relation that goes along with a host goes along with each part of a traversal. -/

section
variable {S : σ → σ → Prop} (lasting : Lasting S)
include lasting

/-- Some work goes along with a relation if it agrees with itself as far as the relation reaches. -/
theorem AgreeUnless.along {x : Work σ α} (agree : ∀ w, AgreeUnless (fun _ => False) (fun v v' => v = v' ∧ S w v') x x) :
    Along S x := by
  intro w
  obtain ⟨a, v, w', left, -, rfl, last⟩ := Agree.iff_unless.mpr (agree w) w w ⟨rfl, lasting.refl w⟩
  rw [left]
  cases a <;> exact last

theorem AgreeUnless.of_along {x : Work σ α} (along : Along S x) (w : σ) :
    AgreeUnless (fun _ => False) (fun v v' => v = v' ∧ S w v') x x := by
  refine Agree.iff_unless.mp ?_
  rintro v _ ⟨rfl, before⟩
  obtain ⟨a, v', found⟩ := exists_answered (x v)
  refine ⟨a, v', v', found, found, rfl, lasting.trans before ?_⟩
  have last := along v
  rw [found] at last
  cases a <;> exact last

namespace HostAlong
variable {host : Host σ} (along : HostAlong S host)
include along

theorem agree (w : σ) : HostsAgreeUnless (fun _ => False) (fun v v' => v = v' ∧ S w v') host host :=
  ⟨fun role c place => .of_along lasting (along.check role c place) w,
    fun id literal supplied place => .of_along lasting (along.invoke id literal supplied place) w,
    fun event v => .of_along lasting (along.emit event v) w⟩

theorem row {walk : Int → Nat → List Int → Progress → Work σ Verdict}
    (inside : ∀ cursor skip deeper p, Along S (walk cursor skip deeper p))
    (level : Level) (outer resume : List Int) (supplied : Value) (size : Nat) :
    Along S (runRow host level outer resume supplied size walk) :=
  AgreeUnless.along lasting (fun w => runRow_agree (along.agree lasting w) level outer resume supplied size
    (fun cursor skip deeper p => .of_along lasting (inside cursor skip deeper p) w))

theorem rounds {body : List Int → Value → Work σ Report} (inside : ∀ resume supplied, Along S (body resume supplied))
    (here : List Int) (test : Condition) (size fuel : Nat) (resume : List Int) (p : Progress) :
    Along S (iterate host here test size body fuel resume p) :=
  AgreeUnless.along lasting (fun w => iterate_agree (along.agree lasting w) here test size
    (fun resume supplied => .of_along lasting (inside resume supplied) w) fuel resume p)

theorem items (fuel : Nat) (outer : List Int) (cursor : Int) (skip : Nat) (deeper : List Int) (p : Progress) (row : List Item) :
    Along S (runItems host fuel outer cursor skip deeper p row) :=
  AgreeUnless.along lasting (fun w => runItems_agree (along.agree lasting w) fuel outer cursor skip deeper p row)

end HostAlong

end

/-- Two hosts do alike, once a renaming is given. -/
structure HostsAlike (lost : σ → Prop) (R : Renaming → σ → τ → Prop) (f : Renaming) (first : Host σ) (second : Host τ) :
    Prop where
  stays : HostAlong (Stays lost) first
  check : ∀ g, f.Within g → ∀ role c c' place, Condition.Sent g c c' →
    AkinUnless lost R g Answered (first.check role c place) (second.check role c' place)
  invoke : ∀ g, f.Within g → ∀ id literal literal' supplied supplied' place, g.Sends literal literal' →
    g.Sends supplied supplied' → AkinUnless lost R g Outcome.Sent (first.invoke id literal supplied place)
      (second.invoke id literal' supplied' place)
  emit : ∀ g, f.Within g → ∀ event event' v v', Event.Sent event event' → View.Sent g v v' →
    AkinUnless lost R g Whatever (first.emit event v) (second.emit event' v')

variable {lost : σ → Prop} {first : Host σ} {second : Host τ} (hosts : HostsAlike lost R f first second)
include hosts

theorem HostsAlike.mono (within : f.Within g) : HostsAlike lost R g first second where
  stays := hosts.stays
  check _ more := hosts.check _ (within.trans more)
  invoke _ more := hosts.invoke _ (within.trans more)
  emit _ more := hosts.emit _ (within.trans more)

theorem check_alike (here : List Int) (stepId : String) (role : Role) {c d : Condition} (sent : Condition.Sent f c d) :
    AkinUnless lost R f Answered (check first here stepId role c) (check second here stepId role d) := by
  have lasting := Stays.lasting lost
  refine (hosts.check f (.refl f) role c d here sent).bind (fun answer => ?_) (fun g a b within answer => ?_)
  · cases answer with
    | error halt => exact lasting.pure _
    | ok passed => exact lasting.bind (hosts.stays.emit _ _) (fun _ => lasting.pure _)
  · cases answer with
    | halted halt => exact .pure (.halted halt)
    | passed b =>
      have told := hosts.emit g within (.checked role c b) (.checked role d b) { cursors := here, stepId }
        { cursors := here, stepId } (.checked role c d b) ⟨rfl, rfl, .inl ⟨rfl, rfl⟩⟩
      exact told.bind (fun _ => lasting.pure _) (fun _ _ _ _ _ => .pure (.passed b))

theorem whenOpen_alike (here : List Int) {p q : Progress} (progress : Progress.Sent f p q) {gate gate' : Option Condition}
    (opens : Gate.Sent f gate gate') {x : Work σ Verdict} {y : Work τ Verdict} (stays : Along (Stays lost) x)
    (inside : ∀ g, f.Within g → AkinUnless lost R g Verdict.Sent x y) :
    AkinUnless lost R f Verdict.Sent (whenOpen first here p gate x) (whenOpen second here q gate' y) := by
  have lasting := Stays.lasting lost
  cases opens with
  | none => exact inside f (.refl f)
  | @some c d condition =>
    have checked := check_alike hosts here p.stepId .gate condition
    rw [whenOpen, whenOpen, progress.stepId]
    refine checked.bind (fun answer => ?_) (fun g a b within answer => ?_)
    · obtain halt | passed := answer
      · exact lasting.pure _
      · cases passed with
        | false => exact lasting.pure _
        | true => exact stays
    · cases answer with
      | halted halt => exact .pure (.leave ⟨rfl, .halted halt []⟩)
      | passed b =>
        cases b with
        | false => exact .pure (.onward (progress.mono within))
        | true => exact inside g within

theorem runMarker_alike (here : List Int) {p q : Progress} (progress : Progress.Sent f p q) (signal : Signal) {c d : Condition}
    (sent : Condition.Sent f c d) :
    AkinUnless lost R f Verdict.Sent (runMarker first here p signal c) (runMarker second here q signal d) := by
  have lasting := Stays.lasting lost
  rw [runMarker, runMarker, progress.stepId]
  refine (check_alike hosts here p.stepId (.marker signal) sent).bind (fun answer => ?_) (fun g a b within answer => ?_)
  · obtain halt | passed := answer
    · exact lasting.pure _
    · cases passed <;> exact lasting.pure _
  · cases answer with
    | halted halt => exact .pure (.leave ⟨rfl, .halted halt []⟩)
    | passed b =>
      cases b with
      | false => exact .pure (.onward (progress.mono within))
      | true => exact .pure (.leave ⟨rfl, .signalled signal⟩)

theorem runStep_alike (here : List Int) {p q : Progress} (progress : Progress.Sent f p q) (id : String)
    {literal literal' : Value} (sends : f.Sends literal literal') :
    AkinUnless lost R f Verdict.Sent (runStep first here p id literal) (runStep second here q id literal') := by
  have lasting := Stays.lasting lost
  have told (g : Renaming) (within : f.Within g) {v w : View} (view : View.Sent g v w) {a b : Verdict}
      (values : ∀ k, g.Within k → Verdict.Sent k a b) :
      AkinUnless lost R g Verdict.Sent (first.emit (.step id) v >>= fun _ => pure a)
        (second.emit (.step id) w >>= fun _ => pure b) :=
    (hosts.emit g within (.step id) (.step id) v w (.same _) view).bind (fun _ => lasting.pure _)
      (fun k _ _ more _ => .pure (values k more))
  have halted {g : Renaming} {a b : Halt} (halt : Halt.Sent g a b) :
      View.Sent g { cursors := here, stepId := id, halt := some a } { cursors := here, stepId := id, halt := some b } :=
    ⟨rfl, rfl, .inr ⟨_, _, rfl, rfl, halt⟩⟩
  have left {g : Renaming} {a b : Halt} (halt : Halt.Sent g a b) :
      Verdict.Sent g (.leave ⟨id, .halted a []⟩) (.leave ⟨id, .halted b []⟩) := .leave ⟨rfl, .halted halt []⟩
  refine (hosts.invoke f (.refl f) id _ _ _ _ here sends progress.supplied).bind (fun outcome => ?_)
    (fun g a b within outcome => ?_)
  · cases outcome <;> exact lasting.bind (hosts.stays.emit _ _) (fun _ => lasting.pure _)
  · cases outcome with
    | done => exact told g within ⟨rfl, rfl, .inl ⟨rfl, rfl⟩⟩ (fun k _ => .onward ⟨rfl, nothing_sent k⟩)
    | @awaits a b halt =>
      exact told g within (halted halt) (fun k more => left (halt.mono more))
    | @failed a b halt =>
      exact told g within (halted halt) (fun k more => left (halt.mono more))

omit hosts

/-- Two ways to walk over a row do alike from here on. -/
structure WalksAlike (lost : σ → Prop) (R : Renaming → σ → τ → Prop) (f : Renaming)
    (walk : Int → Nat → List Int → Progress → Work σ Verdict) (stroll : Int → Nat → List Int → Progress → Work τ Verdict) :
    Prop where
  stays : ∀ cursor skip deeper p, Along (Stays lost) (walk cursor skip deeper p)
  alike : ∀ g, f.Within g → ∀ cursor skip deeper p q, Progress.Sent g p q →
    AkinUnless lost R g Verdict.Sent (walk cursor skip deeper p) (stroll cursor skip deeper q)

variable {walk : Int → Nat → List Int → Progress → Work σ Verdict} {stroll : Int → Nat → List Int → Progress → Work τ Verdict}

theorem WalksAlike.mono (walks : WalksAlike lost R f walk stroll) (within : f.Within g) : WalksAlike lost R g walk stroll :=
  ⟨walks.stays, fun k more => walks.alike k (within.trans more)⟩

theorem walkRow_alike {size : Nat} (walks : WalksAlike lost R f walk stroll) (start : Int) (deeper : List Int) {p q : Progress}
    (progress : Progress.Sent f p q) :
    AkinUnless lost R f Verdict.Sent (walkRow size walk start deeper p) (walkRow size stroll start deeper q) := by
  unfold walkRow
  split
  · refine (walks.alike f (.refl f) _ _ _ _ _ progress).bind (fun verdict => ?_) (fun g a b within verdict => ?_)
    · cases verdict with
      | onward progress => exact walks.stays _ _ _ _
      | leave report => exact (Stays.lasting lost).pure _
    · cases verdict with
      | onward progress => exact walks.alike g within _ _ _ _ _ progress
      | leave report => exact .pure (.leave report)
  · exact walks.alike f (.refl f) _ _ _ _ _ progress

theorem walkRow_stays {size : Nat} (walks : WalksAlike lost R f walk stroll) (start : Int) (deeper : List Int) (p : Progress) :
    Along (Stays lost) (walkRow size walk start deeper p) := by
  unfold walkRow
  split
  · refine (Stays.lasting lost).bind (walks.stays _ _ _ _) (fun verdict => ?_)
    cases verdict with
    | onward progress => exact walks.stays _ _ _ _
    | leave report => exact (Stays.lasting lost).pure _
  · exact walks.stays _ _ _ _

theorem Verdict.Sent.report {a b : Verdict} (sent : Verdict.Sent f a b) : Report.Sent f a.report b.report := by
  cases sent with
  | onward progress => exact ⟨progress.stepId, .passed⟩
  | leave report => exact report

theorem Report.Sent.closing {r s : Report} (sent : Report.Sent f r s) (level : Level) (outer : List Int) :
    Event.Sent (r.closing level outer).1 (s.closing level outer).1 ∧
      View.Sent f (r.closing level outer).2 (s.closing level outer).2 := by
  obtain ⟨stepId, ending⟩ := r
  obtain ⟨stepId', ending'⟩ := s
  obtain ⟨rfl, sent⟩ := sent
  cases sent with
  | passed => exact ⟨.same _, rfl, rfl, .inl ⟨rfl, rfl⟩⟩
  | signalled s => exact ⟨.same _, rfl, rfl, .inl ⟨rfl, rfl⟩⟩
  | halted halt cursors => exact ⟨.same _, rfl, rfl, .inr ⟨_, _, rfl, rfl, halt⟩⟩

theorem Report.Sent.mono {r s : Report} (sent : Report.Sent f r s) (within : f.Within g) : Report.Sent g r s := by
  obtain ⟨stepId, ending⟩ := r
  obtain ⟨stepId', ending'⟩ := s
  obtain ⟨same, sent⟩ := sent
  refine ⟨same, ?_⟩
  cases sent with
  | passed => exact .passed
  | signalled s => exact .signalled s
  | halted halt cursors => exact .halted (halt.mono within) cursors

include hosts

theorem runRow_alike (level : Level) (outer resume : List Int) {supplied supplied' : Value}
    (sends : f.Sends supplied supplied') (size : Nat) (walks : WalksAlike lost R f walk stroll) :
    AkinUnless lost R f Report.Sent (runRow first level outer resume supplied size walk)
      (runRow second level outer resume supplied' size stroll) := by
  have lasting := Stays.lasting lost
  have told := hosts.emit f (.refl f) (.opened level) (.opened level) { cursors := outer ++ (resume.headD 0 :: resume.tail) }
    { cursors := outer ++ (resume.headD 0 :: resume.tail) } (.same _) ⟨rfl, rfl, .inl ⟨rfl, rfl⟩⟩
  have closing (verdict : Verdict) : Along (Stays lost) (do
      first.emit (verdict.report.closing level outer).1 (verdict.report.closing level outer).2
      return verdict.report) := lasting.bind (hosts.stays.emit _ _) (fun _ => lasting.pure _)
  refine told.bind (fun _ => lasting.bind (walkRow_stays walks _ _ _) closing) (fun g _ _ within _ => ?_)
  have progress : Progress.Sent g ⟨supplied, ""⟩ ⟨supplied', ""⟩ := ⟨rfl, sends.mono within⟩
  have walked : AkinUnless lost R g Verdict.Sent (walkRow size _ _ _ _) (walkRow size _ _ _ _) :=
    walkRow_alike (walks.mono within) (resume.headD 0) resume.tail progress
  refine walked.bind closing (fun k _ _ more verdict => ?_)
  have report := verdict.report
  obtain ⟨event, view⟩ := report.closing level outer
  have closed := (hosts.mono (within.trans more)).emit k (.refl k) _ _ _ _ event view
  exact closed.bind (fun _ => lasting.pure _) (fun l _ _ last _ => .pure (report.mono last))

theorem testRound_alike (here : List Int) (stepId : String) {c d : Condition} (sent : Condition.Sent f c d) (resume : List Int) :
    AkinUnless lost R f Answered (testRound first here stepId c resume) (testRound second here stepId d resume) := by
  unfold testRound
  split
  · exact check_alike hosts here stepId .test sent
  · exact .pure (.passed true)

omit hosts

/-- Two bodies of a loop do alike from here on. -/
structure BodiesAlike (lost : σ → Prop) (R : Renaming → σ → τ → Prop) (f : Renaming) (body : List Int → Value → Work σ Report)
    (other : List Int → Value → Work τ Report) : Prop where
  stays : ∀ resume supplied, Along (Stays lost) (body resume supplied)
  alike : ∀ g, f.Within g → ∀ resume supplied supplied', g.Sends supplied supplied' →
    AkinUnless lost R g Report.Sent (body resume supplied) (other resume supplied')

include hosts

theorem iterate_alike (here : List Int) {c d : Condition} (sent : Condition.Sent f c d) (size : Nat)
    {body : List Int → Value → Work σ Report} {other : List Int → Value → Work τ Report}
    (bodies : BodiesAlike lost R f body other)
    (fuel : Nat) (resume : List Int) {p q : Progress} (progress : Progress.Sent f p q) :
    AkinUnless lost R f Verdict.Sent (iterate first here c size body fuel resume p)
      (iterate second here d size other fuel resume q) := by
  have lasting := Stays.lasting lost
  induction fuel generalizing f resume p q with
  | zero => exact .throw (.other (fun _ => by simp) (fun _ => by simp))
  | succ fuel ih =>
    obtain ⟨supplied, _⟩ := p
    obtain ⟨supplied', step⟩ := q
    obtain ⟨rfl, sends⟩ := progress
    have repeated (p : Progress) := hosts.stays.rounds lasting bodies.stays here c size fuel [] p
    have after (r : Report) : Along (Stays lost) (nextRound first here c size body fuel ⟨supplied, step⟩ r) := by
      obtain ⟨stepId, _ | signal | _⟩ := r
      · exact repeated _
      · cases signal with
        | breakLoop => exact lasting.pure _
        | continueLoop => exact repeated _
      · exact lasting.pure _
    rw [iterate_succ, iterate_succ]
    refine (testRound_alike hosts here step sent resume).bind (fun answer => ?_) (fun g a b within answer => ?_)
    · obtain halt | passed := answer
      · exact lasting.pure _
      · cases passed with
        | false => exact lasting.pure _
        | true => exact lasting.bind (bodies.stays _ _) after
    · cases answer with
      | halted halt => exact .pure (.leave ⟨rfl, .halted halt _⟩)
      | passed b =>
        cases b with
        | false => exact .pure (.onward ⟨rfl, nothing_sent g⟩)
        | true =>
          refine (bodies.alike g within resume _ _ (sends.mono within)).bind after (fun k r s more report => ?_)
          have within := within.trans more
          have again (step : String) := ih (hosts.mono within) (sent.mono within)
            ⟨bodies.stays, fun l last => bodies.alike l (within.trans last)⟩ [] (p := ⟨.nothing, step⟩) (q := ⟨.nothing, step⟩)
            ⟨rfl, nothing_sent k⟩
          obtain ⟨stepId, ending⟩ := r
          obtain ⟨stepId', ending'⟩ := s
          obtain ⟨rfl, ended⟩ := report
          cases ended with
          | passed => exact again _
          | halted halt cursors => exact .pure (.leave ⟨rfl, .halted halt cursors⟩)
          | signalled signal =>
            cases signal with
            | breakLoop => exact .pure (.onward ⟨rfl, nothing_sent k⟩)
            | continueLoop => exact again _

omit hosts

theorem Report.Sent.under {r s : Report} (sent : Report.Sent f r s) (cursor : Int) :
    Report.Sent f (r.under cursor) (s.under cursor) := by
  obtain ⟨stepId, ending⟩ := r
  obtain ⟨stepId', ending'⟩ := s
  obtain ⟨rfl, sent⟩ := sent
  cases sent with
  | passed => exact ⟨rfl, .passed⟩
  | signalled s => exact ⟨rfl, .signalled s⟩
  | halted halt cursors => exact ⟨rfl, .halted halt _⟩

theorem leaveBlock_sent {p q : Progress} (progress : Progress.Sent f p q) {r s : Report} (sent : Report.Sent f r s) :
    Verdict.Sent f (leaveBlock p r) (leaveBlock q s) := by
  obtain ⟨stepId, ending⟩ := r
  obtain ⟨stepId', ending'⟩ := s
  obtain ⟨rfl, sent⟩ := sent
  have same := progress.stepId
  cases sent with
  | passed => exact .onward ⟨by rw [same], nothing_sent f⟩
  | signalled s => exact .leave ⟨by rw [same], .signalled s⟩
  | halted halt cursors => exact .leave ⟨rfl, .halted halt cursors⟩

/-- Walks over corresponding rows do alike, if the items of the rows do. -/
theorem walks_alike {f : Renaming} (hosts : HostsAlike lost R f first second) (fuel : Nat) (outer : List Int)
    {items items' : List Item} (inside : ∀ g, f.Within g → ∀ cursor skip deeper p q, Progress.Sent g p q →
      AkinUnless lost R g Verdict.Sent (runItems first fuel outer cursor skip deeper p items)
        (runItems second fuel outer cursor skip deeper q items')) :
    WalksAlike lost R f (fun cursor skip deeper p => runItems first fuel outer cursor skip deeper p items)
      (fun cursor skip deeper q => runItems second fuel outer cursor skip deeper q items') where
  stays cursor skip deeper p := hosts.stays.items (Stays.lasting lost) fuel outer cursor skip deeper p items
  alike := inside

mutual

theorem runItem_alike {f : Renaming} (hosts : HostsAlike lost R f first second) (fuel : Nat) (here deeper : List Int)
    {p q : Progress} (progress : Progress.Sent f p q) {i j : Item} (sent : Item.Sent f i j) :
    AkinUnless lost R f Verdict.Sent (runItem first fuel here deeper p i) (runItem second fuel here deeper q j) := by
  have lasting := Stays.lasting lost
  cases sent with
  | marker condition =>
    simp only [runItem]
    exact runMarker_alike hosts here progress _ condition
  | @step id literal literal' gate gate' sends opens =>
    simp only [runItem]
    refine whenOpen_alike hosts here progress (opens.unless _) ?_ (fun g within => ?_)
    · refine lasting.bind (hosts.stays.invoke _ _ _ _) (fun outcome => ?_)
      cases outcome <;> exact lasting.bind (hosts.stays.emit _ _) (fun _ => lasting.pure _)
    · exact runStep_alike (hosts.mono within) here (progress.mono within) id (sends.mono within)
  | @block items items' gate gate' inside opens =>
    simp only [runItem, inside.length]
    refine whenOpen_alike hosts here progress (opens.unless _) ?_ (fun g within => ?_)
    · exact lasting.bind (hosts.stays.row lasting (fun _ _ _ _ => hosts.stays.items lasting _ _ _ _ _ _ _) _ _ _ _ _)
        (fun _ => lasting.pure _)
    · have inside := inside.mono within
      have walks := walks_alike (hosts.mono within) fuel here (fun k more cursor skip inner p q progress =>
        runItems_alike (hosts.mono (within.trans more)) fuel here cursor skip inner progress (inside.mono more))
      refine (runRow_alike (hosts.mono within) _ _ _ (progress.supplied.mono within) _ walks).bind (fun _ => lasting.pure _)
        (fun k r s more report => ?_)
      exact .pure (leaveBlock_sent (progress.mono (within.trans more)) report)
  | @loop test test' items items' gate gate' condition inside opens =>
    simp only [runItem, inside.length]
    have rows (resume : List Int) (supplied : Value) := hosts.stays.row lasting
      (fun cursor skip inner q => hosts.stays.items lasting fuel here cursor skip inner q items) .nested here resume supplied
        items.length
    refine whenOpen_alike hosts here progress (opens.unless _) (hosts.stays.rounds lasting rows _ _ _ _ _ _) (fun g within => ?_)
    refine iterate_alike (hosts.mono within) here (condition.mono within) _
      ⟨rows, fun k more resume supplied supplied' sends => ?_⟩
      fuel deeper (progress.mono within)
    have within := within.trans more
    have inside := inside.mono within
    exact runRow_alike (hosts.mono within) _ _ _ sends _ (walks_alike (hosts.mono within) fuel here
      (fun l last cursor skip inner p q progress =>
        runItems_alike (hosts.mono (within.trans last)) fuel here cursor skip inner progress (inside.mono last)))

theorem runItems_alike {f : Renaming} (hosts : HostsAlike lost R f first second) (fuel : Nat) (outer : List Int) (cursor : Int)
    (skip : Nat) (deeper : List Int) {p q : Progress} (progress : Progress.Sent f p q) {items items' : List Item}
    (sent : Items.Sent f items items') :
    AkinUnless lost R f Verdict.Sent (runItems first fuel outer cursor skip deeper p items)
      (runItems second fuel outer cursor skip deeper q items') := by
  have lasting := Stays.lasting lost
  cases sent with
  | nil =>
    simp only [runItems]
    exact .pure (.onward progress)
  | @cons i j rest rest' begins others =>
    cases skip with
    | succ skip =>
      simp only [runItems]
      exact runItems_alike hosts fuel outer cursor skip deeper progress others
    | zero =>
      simp only [runItems]
      refine (runItem_alike hosts fuel (outer ++ [cursor]) deeper progress begins).bind (fun verdict => ?_)
        (fun g a b within verdict => ?_)
      · cases verdict with
        | onward progress => exact hosts.stays.items lasting _ _ _ _ _ _ _
        | leave report => exact lasting.pure _
      · cases verdict with
        | onward progress =>
          exact runItems_alike (hosts.mono within) fuel outer (cursor + 1) 0 [] progress (others.mono within)
        | leave report => exact .pure (.leave (report.under cursor))

end

/-- Two hosts that do alike make traversals of corresponding schemas do alike. -/
theorem run_alike (hosts : HostsAlike lost R f first second) (fuel : Nat) (level : Level) {items items' : Schema}
    (sent : Items.Sent f items items') (position : List Int) {supplied supplied' : Value} (sends : f.Sends supplied supplied') :
    AkinUnless lost R f Report.Sent (run first fuel level items position supplied)
      (run second fuel level items' position supplied') := by
  unfold run
  rw [sent.length]
  exact runRow_alike hosts _ _ _ sends _ (walks_alike hosts fuel [] (fun g within cursor skip deeper p q progress =>
    runItems_alike (hosts.mono within) fuel [] cursor skip deeper progress (sent.mono within)))

end Engine

end Workflow
