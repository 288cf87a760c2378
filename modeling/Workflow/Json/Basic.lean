import Workflow.Number.Notation

/-! Plain data: what documents, snapshots and command lines hold. -/

namespace Workflow

/-- Members of an object keep the order in which they are written. -/
inductive Json where
  | null
  | bool (b : Bool)
  | int (n : Int)
  | float (x : Float)
  | str (s : String)
  | array (items : List Json)
  | object (members : List (String × Json))
  deriving Repr

instance : Inhabited Json := ⟨.null⟩

namespace Json

/-- A member added to others: a name that is there keeps its place and takes the new value. -/
def setMember (members : List (String × Json)) (name : String) (v : Json) :
    List (String × Json) :=
  if members.any (·.1 == name) then
    members.map (fun (n, w) => if n == name then (n, v) else (n, w))
  else members ++ [(name, v)]

def member? (j : Json) (name : String) : Option Json :=
  match j with
  | .object members => (members.find? (·.1 == name)).map (·.2)
  | _ => none

end Json

end Workflow
