import Workflow.Call

/-! What a context is made of: the objects that are reached from it. -/

namespace Workflow.Script

mutual

/-- The addresses in a value. -/
def Value.addresses : Value → List Addr
  | .tuple items => Value.addressesOf items
  | .slice lower upper step => lower.addresses ++ upper.addresses ++ step.addresses
  | .bound _ receiver => receiver.addresses
  | .ref a => [a]
  | _ => []

def Value.addressesOf : List Value → List Addr
  | [] => []
  | v :: rest => v.addresses ++ Value.addressesOf rest

end

def Function.addresses (f : Function) : List Addr :=
  f.scope :: Value.addressesOf (f.defaults ++ f.keywordDefaults.filterMap (·))

def Frame.addresses (f : Frame) : List Addr :=
  f.outer.toList ++ Value.addressesOf ((f.values ++ f.builtins).map (·.2))

def Iterator.addresses : Iterator → List Addr
  | .list source _ => [source]
  | .tuple rest => Value.addressesOf rest
  | .entries _ source _ _ => [source]
  | .set rest source _ => source :: Value.addressesOf rest
  | .enumerate inner _ => [inner]
  | .zip inners => inners
  | .generator g => g.frame :: g.cursors
  | _ => []

/-- The addresses in an object. -/
def Object.addresses : Object → List Addr
  | .list items => Value.addressesOf items.toList
  | .dict entries => Value.addressesOf (entries.toList.flatMap (fun (key, v) => [key, v]))
  | .set items => Value.addressesOf items.toList
  | .record _ fields => Value.addressesOf (fields.toList.map (·.2))
  | .error _ args fields => Value.addressesOf (args ++ fields.toList.map (·.2))
  | .function f => f.addresses
  | .frame f => f.addresses
  | .supplied _ => []
  | .awaitable _ args => Value.addressesOf args
  | .iterator it => it.addresses
  | .view _ source => [source]

/-- An object is part of what a value is made of. -/
inductive Heap.Reaches (h : Heap) (v : Value) : Addr → Prop where
  | here {a} (named : a ∈ v.addresses) : Reaches h v a
  | deeper {a b} (reaches : Reaches h v a) (named : b ∈ (h.object a).addresses) : Reaches h v b

end Workflow.Script

namespace Workflow

/-- The context of a call is as it was before, down to every object that is reached from it. -/
def Call.Keeps (call : Call) (w w' : World) : Prop :=
  ∀ a, w.heap.Reaches call.context a → w'.heap.object a = w.heap.object a

namespace Call.Keeps
variable {call : Call} {w w' w'' : World}

theorem of_heap (same : w'.heap = w.heap) : call.Keeps w w' := by
  intro a reaches
  rw [same]

theorem reaches (keeps : call.Keeps w w') {a : Script.Addr} (reaches : w.heap.Reaches call.context a) :
    w'.heap.Reaches call.context a := by
  induction reaches with
  | here named => exact .here named
  | deeper before named ih =>
    refine .deeper ih ?_
    rw [keeps _ before]
    exact named

theorem trans (first : call.Keeps w w') (second : call.Keeps w' w'') : call.Keeps w w'' := by
  intro a reaches
  -- What is reached is kept with the context, so the second step keeps the same objects.
  rw [second a (first.reaches reaches), first a reaches]

end Call.Keeps

end Workflow
