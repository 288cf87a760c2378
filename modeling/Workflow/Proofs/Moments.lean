import Workflow.Proofs.Deeds

/-! What a traversal does and what it tells of, in the order in which both come. An observing host notes its deeds
and its events, and also an event of which it fails to tell. It is otherwise the host that it observes. -/

namespace Workflow.Engine
open Script (Value)

/-- A deed, or an event with the worlds before and after. Of an event that is missed, nothing is told to the end. -/
inductive Moment (σ : Type) where
  | done (d : Deed σ)
  | told (event : Event) (v : View) (before after : σ)
  | missed (event : Event) (v : View) (before : σ) (fault : Fault) (after : σ)

namespace Moment

def deed? : Moment σ → Option (Deed σ)
  | .done d => some d
  | _ => none

def tale? : Moment σ → Option (Event × View)
  | .told event v _ _ => some (event, v)
  | _ => none

end Moment

/-- The deeds among some moments. -/
def deedsOf (ms : List (Moment σ)) : List (Deed σ) := ms.filterMap Moment.deed?

/-- The events among some moments, each with the view that came with it. -/
def talesOf (ms : List (Moment σ)) : List (Event × View) := ms.filterMap Moment.tale?

section
variable (ms ns : List (Moment σ)) (d : Deed σ) (event : Event) (v : View) (w w' : σ) (fault : Fault)

@[simp] theorem deedsOf_nil : deedsOf ([] : List (Moment σ)) = [] := rfl

@[simp] theorem talesOf_nil : talesOf ([] : List (Moment σ)) = [] := rfl

@[simp] theorem deedsOf_append : deedsOf (ms ++ ns) = deedsOf ms ++ deedsOf ns := List.filterMap_append

@[simp] theorem talesOf_append : talesOf (ms ++ ns) = talesOf ms ++ talesOf ns := List.filterMap_append

@[simp] theorem deedsOf_done : deedsOf (.done d :: ms) = d :: deedsOf ms := rfl

@[simp] theorem talesOf_done : talesOf (.done d :: ms) = talesOf ms := rfl

@[simp] theorem deedsOf_told : deedsOf (.told event v w w' :: ms) = deedsOf ms := rfl

@[simp] theorem talesOf_told : talesOf (.told event v w w' :: ms) = (event, v) :: talesOf ms := rfl

@[simp] theorem deedsOf_missed : deedsOf (.missed event v w fault w' :: ms) = deedsOf ms := rfl

@[simp] theorem talesOf_missed : talesOf (.missed event v w fault w' :: ms) = talesOf ms := rfl

end

/-- The host that also notes what it is asked and what it tells. -/
def Host.observed (host : Host σ) : Host (σ × List (Moment σ)) where
  check role c place := fun (w, log) =>
    match host.check role c place w with
    | .ok answer w' => .ok answer (w', log ++ [.done (.checked role c place w (.ok answer) w')])
    | .error fault w' => .error fault (w', log ++ [.done (.checked role c place w (.error fault) w')])
  invoke id literal supplied place := fun (w, log) =>
    match host.invoke id literal supplied place w with
    | .ok outcome w' => .ok outcome (w', log ++ [.done (.invoked id literal supplied place w (.ok outcome) w')])
    | .error fault w' => .error fault (w', log ++ [.done (.invoked id literal supplied place w (.error fault) w')])
  emit event v := fun (w, log) =>
    match host.emit event v w with
    | .ok () w' => .ok () (w', log ++ [.told event v w w'])
    | .error fault w' => .error fault (w', log ++ [.missed event v w fault w'])

section
variable (host : Host σ) (w : σ) (log : List (Moment σ))

theorem observed_check {role c place w'} (answer : Answer) (found : host.check role c place w = answered answer w') :
    host.observed.check role c place (w, log) =
      answered answer (w', log ++ [.done (.checked role c place w answer w')]) := by
  simp only [Host.observed, found]
  cases answer <;> rfl

theorem observed_invoke {id literal supplied place w'} (answer : Except Fault Outcome)
    (found : host.invoke id literal supplied place w = answered answer w') :
    host.observed.invoke id literal supplied place (w, log) =
      answered answer (w', log ++ [.done (.invoked id literal supplied place w answer w')]) := by
  simp only [Host.observed, found]
  cases answer <;> rfl

theorem observed_told {event v w'} (told : host.emit event v w = .ok () w') :
    host.observed.emit event v (w, log) = .ok () (w', log ++ [.told event v w w']) := by
  simp only [Host.observed, told]

theorem observed_missed {event v fault w'} (missed : host.emit event v w = .error fault w') :
    host.observed.emit event v (w, log) = .error fault (w', log ++ [.missed event v w fault w']) := by
  simp only [Host.observed, missed]

end

/-- A moment of a host: a deed that it did, or an event that it told of or failed to tell of. -/
def Moment.Of (host : Host σ) : Moment σ → Prop
  | .done d => d.Done host
  | .told event v w w' => host.emit event v w = .ok () w'
  | .missed event v w fault w' => host.emit event v w = .error fault w'

/-- An observing host, the host that records its deeds, and the world that both have come to. -/
def Observes (host : Host σ) (v : σ × List (Moment σ)) (w : σ × List (Deed σ)) : Prop :=
  v.1 = w.1 ∧ deedsOf v.2 = w.2 ∧ ∀ m ∈ v.2, m.Of host

theorem Observes.more {host : Host σ} {w w' : σ} {log : List (Moment σ)} {ds : List (Deed σ)} {m : Moment σ}
    (observes : Observes host (w, log) (w, ds)) (real : m.Of host) :
    Observes host (w', log ++ [m]) (w', ds ++ deedsOf [m]) := by
  obtain ⟨-, rfl, each⟩ := observes
  refine ⟨rfl, deedsOf_append _ _, ?_⟩
  intro n member
  cases List.mem_append.mp member with
  | inl earlier => exact each n earlier
  | inr last =>
    rw [List.mem_singleton.mp last]
    exact real

theorem observed_agrees (host : Host σ) : HostsAgree (Observes host) host.observed host.recorded where
  check role c place := by
    rintro ⟨w, log⟩ ⟨v, ds⟩ observes
    obtain rfl : w = v := observes.1
    obtain ⟨a, w', found⟩ := exists_answered (host.check role c place w)
    exact ⟨a, _, _, observed_check host w log a found, recorded_check host w ds a found, observes.more found⟩
  invoke id literal supplied place := by
    rintro ⟨w, log⟩ ⟨v, ds⟩ observes
    obtain rfl : w = v := observes.1
    obtain ⟨a, w', found⟩ := exists_answered (host.invoke id literal supplied place w)
    exact ⟨a, _, _, observed_invoke host w log a found, recorded_invoke host w ds a found, observes.more found⟩
  emit event v := by
    rintro ⟨w, log⟩ ⟨_, ds⟩ observes
    obtain rfl : w = _ := observes.1
    cases told : host.emit event v w with
    | ok _ w' =>
      have noted : Observes host (w', log ++ [.told event v w w']) (w', ds ++ deedsOf [.told event v w w']) :=
        observes.more told
      rw [deedsOf_told, deedsOf_nil, List.append_nil] at noted
      have observed := observed_told host w log told
      have recorded := recorded_emit host w ds (.ok ()) told
      exact ⟨.ok (), _, _, observed, recorded, noted⟩
    | error fault w' =>
      have noted : Observes host (w', log ++ [.missed event v w fault w'])
          (w', ds ++ deedsOf [.missed event v w fault w']) := observes.more told
      rw [deedsOf_missed, deedsOf_nil, List.append_nil] at noted
      have observed := observed_missed host w log told
      have recorded := recorded_emit host w ds (.error fault) told
      exact ⟨.error fault, _, _, observed, recorded, noted⟩

def observed : EStateM.Result Fault (σ × List (Moment σ)) α → List (Moment σ)
  | .ok _ s => s.2
  | .error _ s => s.2

def moments (host : Host σ) (fuel : Nat) (level : Level) (schema : Schema) (position : List Int) (supplied : Value)
    (w : σ) : List (Moment σ) :=
  observed (run host.observed fuel level schema position supplied (w, []))

/-- The observed traversal is the traversal, with its moments, and the deeds among them are its deeds. -/
theorem run_observed (host : Host σ) (fuel : Nat) (level : Level) (schema : Schema) (position : List Int)
    (supplied : Value) (w : σ) :
    ∃ a w', run host fuel level schema position supplied w = answered a w' ∧
      run host.observed fuel level schema position supplied (w, []) =
        answered a (w', moments host fuel level schema position supplied w) ∧
      deedsOf (moments host fuel level schema position supplied w) = deeds host fuel level schema position supplied w ∧
      ∀ m ∈ moments host fuel level schema position supplied w, m.Of host := by
  obtain ⟨a, w', plain, recorded⟩ := run_recorded host fuel level schema position supplied w
  obtain ⟨b, ⟨v, log⟩, ⟨u, ds⟩, left, right, same, noted, each⟩ :=
    run_agree (observed_agrees host) fuel level schema position supplied (w, []) (w, [])
      ⟨rfl, rfl, List.forall_mem_nil _⟩
  obtain ⟨rfl, there⟩ := answered_inj (recorded.symm.trans right)
  have observing : moments host fuel level schema position supplied w = log := by
    rw [moments, left]
    cases a <;> rfl
  cases there
  obtain rfl : v = w' := same
  rw [observing]
  exact ⟨a, v, plain, left, noted, each⟩

end Workflow.Engine
