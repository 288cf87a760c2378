import Workflow.Yaml.Tag

/-! Nodes of documents. An alias makes a node a part of several others, or of itself, so the parts of a
node are known by their positions in a table. -/

namespace Workflow.Yaml

inductive Content where
  | scalar (text : String)
  | sequence (items : List Nat)
  | mapping (pairs : List (Nat × Nat))
  deriving DecidableEq, Repr

structure Node where
  tag : Tag
  content : Content
  deriving DecidableEq, Repr

instance : Inhabited Node := ⟨.null, .scalar ""⟩

/-- All nodes, and the one that stands for the document. -/
structure Graph where
  nodes : Array Node
  root : Nat
  deriving Repr

def Graph.node (g : Graph) (i : Nat) : Node := g.nodes[i]?.getD default

end Workflow.Yaml
