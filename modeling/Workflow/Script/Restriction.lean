import Workflow.Script.Outline

/-! What a script may not contain: private names and attributes, and statements that load or rebind
names from elsewhere. The offence that is reported stands at the least depth, and leftmost there. -/

namespace Workflow.Script

inductive Offence where
  | privateName (id : String)
  | privateAttribute (name : String)
  | foreignStatement (kind : Foreign)
  deriving DecidableEq, Repr

namespace Offence

def keyword : Foreign → String
  | .import => "import"
  | .importFrom => "importfrom"
  | .global => "global"
  | .nonlocal => "nonlocal"

def message : Offence → String
  | .privateName id => s!"name '{id}' is not allowed"
  | .privateAttribute name => s!"attribute '{name}' is not allowed"
  | .foreignStatement kind => s!"{keyword kind} statements are not allowed"

def ofMark? : Mark → Option Offence
  | .name id => if "__".toList.isPrefixOf id.toList then some (.privateName id) else none
  | .attribute name => if name.toList.head? == some '_' then some (.privateAttribute name) else none
  | .foreign kind => some (.foreignStatement kind)
  | _ => none

/-- The first offence of a row of trees, level by level. -/
def inLevels? : (levels : Nat) → List Outline → Option Offence
  | 0, _ => none
  | levels + 1, row =>
    (row.findSome? (fun t => ofMark? t.mark)).or (inLevels? levels (row.flatMap Outline.parts))

def first? (tree : Outline) : Option Offence := inLevels? tree.height [tree]

end Offence

end Workflow.Script
