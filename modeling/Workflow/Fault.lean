import Workflow.Schema.Path
import Workflow.Script.Compile
import Workflow.Script.Act

/-! Why an operation on workflows fails, apart from the errors of scripts. -/

namespace Workflow
open Script (Value Heap Stop Refusal ErrorClass)

/-- A refused argument. -/
inductive Invalid where
  | stepId (shown : String)
  | handler (id : String)
  | noHandler (id : String)
  | listener
  | noPosition (schema : String)
  | outOfRange (schema position : String) (depth : Nat)
  | notBlock (schema position : String) (depth : Nat)
  | notState (className : String)
  | notIndexes (shown : String)
  | notSavable (schema reason : String)
  | notData
  | corrupted
  | notSnapshot
  | notContext (className : String)
  | notAssignment (item : String)
  deriving DecidableEq, Repr

def Invalid.message : Invalid → String
  | .stepId shown => s!"Step id must be a non-empty string, got {shown}"
  | .handler id => s!"Step '{id}': handler must be a string or callable"
  | .noHandler id => s!"Step '{id}': handler is required"
  | .listener => "Trace listener must be callable"
  | .noPosition schema => s!"Workflow '{schema}': state has no position to continue from"
  | .outOfRange schema position depth =>
    s!"Workflow '{schema}': position {position} is out of range at depth {depth}"
  | .notBlock schema position depth =>
    s!"Workflow '{schema}': position {position} descends into a non-block item at depth {depth}"
  | .notState className => s!"State must be a dictionary, got {className}"
  | .notIndexes shown => s!"State indexes must be a list of non-negative integers, got {shown}"
  | .notSavable schema reason =>
    s!"Execution state of '{schema}' is not JSON serializable: {reason}"
  | .notData => "<json error>"
  | .corrupted => "State file is corrupted: <json error>"
  | .notSnapshot => "State file must contain 'schema_id' and 'state'"
  | .notContext className => s!"Context file must contain a JSON object, got {className}"
  | .notAssignment item => s!"Invalid context format: {item}. Expected KEY=VALUE"

/-- A problem of a document and where it lies; an empty path stands for the document. -/
structure Problem where
  message : String
  path : String := ""
  deriving DecidableEq, Repr

/-- The path of a problem and its message. -/
def Problem.text (p : Problem) : String :=
  if p.path.isEmpty then p.message else s!"{p.path}: {p.message}"

/-- What a missing file was wanted for. -/
inductive FileRole where
  | workflow
  | context
  | state
  deriving DecidableEq, Repr

def FileRole.name : FileRole → String
  | .workflow => "Workflow"
  | .context => "Context"
  | .state => "State"

inductive Fault where
  | stopped (stop : Stop)
  | duplicateStep (id : String)
  | duplicateSchema (id : Value)
  | unknownStep (id : String) (schema : Option Value)
  | unknownSchema (id : Value)
  | invalidSchema (schema : Value) (path : Path) (reason : String)
  | refusedSource (source : String) (refusal : Refusal)
  | misplaced
  | invalidDocument (problems : List Problem)
  | invalid (cause : Invalid)
  | missing (role : FileRole) (path : String)
  | system (category : ErrorClass)

namespace Fault

/-- The text of a value in a message. -/
def shown (h : Heap) (v : Value) : String :=
  match v.plain h with
  | .ok s => s
  | .error _ => ""

def message (h : Heap) : Fault → String
  | .stopped (.raised v) => shown h v
  | .stopped .exhausted => "the computation takes too long"
  | .duplicateStep id => s!"Duplicate step id \"{id}\""
  | .duplicateSchema id => s!"Workflow schema with id \"{shown h id}\" already registered."
  | .unknownStep id none => s!"Step \"{id}\" not found."
  | .unknownStep id (some schema) =>
    s!"Workflow schema \"{shown h schema}\" refers to an unknown step id \"{id}\"."
  | .unknownSchema id => s!"Workflow schema id \"{shown h id}\" does not exist."
  | .invalidSchema schema path reason =>
    s!"Workflow schema \"{shown h schema}\" at {path.text}: {reason}"
  | .refusedSource source refusal => refusal.message source
  | .misplaced => "a part of the source is out of place"
  | .invalidDocument problems =>
    "\n".intercalate (problems.map (fun p => "Validation error: " ++ p.text))
  | .invalid cause => cause.message
  | .missing role path => s!"{role.name} file not found: {path}"
  | .system category => category.name

/-- Whether a fault lies in how steps and schemas were set up. -/
def isConfiguration : Fault → Bool
  | .duplicateStep _ => true
  | .duplicateSchema _ => true
  | .unknownStep _ _ => true
  | .invalidSchema _ _ _ => true
  | _ => false

def raisedClass? (h : Heap) : Fault → Option ErrorClass
  | .stopped (.raised (.ref a)) =>
    match h.object a with
    | .error c _ _ => some c
    | _ => none
  | _ => none

/-- Whether a fault lies in a value rather than in what was done with it. -/
def isValue (h : Heap) (f : Fault) : Bool :=
  match f with
  | .refusedSource _ _ => true
  | .invalid _ => true
  | f => (f.raisedClass? h).any (·.isA .value)

end Fault

end Workflow
