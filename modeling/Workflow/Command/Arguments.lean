import Workflow.Text.Digit

/-! Arguments of a command line: options, which may be shortened as long as it is clear which one is
meant, and operands. -/

namespace Workflow.Command

/-- What an option is followed by. -/
inductive Takes where
  | nothing
  | value
  | oneOf (choices : List String)
  deriving DecidableEq, Repr

structure OptionRule where
  name : String
  takes : Takes
  deriving DecidableEq, Repr

/-- Why arguments lead to no command. -/
inductive Misfit where
  /-- Help was asked for. -/
  | help
  | misuse
  deriving DecidableEq, Repr

inductive Argument where
  | operand (text : String)
  | option (rule : OptionRule) (value : Option String)
  /-- The option that asks for help, and what is glued to it. -/
  | help (glued : List Char)
  | unknown
  /-- A sign that only operands follow. -/
  | separator
  deriving DecidableEq, Repr

def helpName : String := "--help"

def shortHelpName : String := "-h"

/-- Whether a text behind a minus sign makes it a number. -/
def isNumber (cs : List Char) : Bool :=
  let isDigit (c : Char) := (Text.decimal? c).isSome
  match cs.dropWhile isDigit with
  | [] => !cs.isEmpty
  | '.' :: fraction => !fraction.isEmpty && fraction.all isDigit
  | _ => false

/-- The text before the first sign of equality and the text behind it, if there is one. -/
def splitValue (s : String) : String × Option String :=
  let name := s.toList.takeWhile (· != '=')
  match s.toList.drop name.length with
  | _ :: value => (String.ofList name, some (String.ofList value))
  | [] => (s, none)

/-- A value with its sign, as it is glued to a name. -/
def gluedValue : Option String → List Char
  | some value => '=' :: value.toList
  | none => []

/-- The options that a name stands for in full. -/
def exactly? (rules : List OptionRule) (name : String) (value : Option String) : Option Argument :=
  if name == shortHelpName || name == helpName then some (.help (gluedValue value))
  else (rules.find? (·.name == name)).map (.option · value)

def shortened (rules : List OptionRule) (name : String) (value : Option String) : List Argument :=
  (if helpName.startsWith name then [.help (gluedValue value)] else []) ++
    (rules.filter (·.name.startsWith name)).map (.option · value)

/-- What an argument is. One that may stand for several options is misused. -/
def Argument.ofText (rules : List OptionRule) (s : String) : Except Misfit Argument :=
  let (name, value) := splitValue s
  match s.toList with
  | '-' :: second :: rest =>
    match (exactly? rules s none).or (value.bind (fun value => exactly? rules name (some value))) with
    | some found => .ok found
    | none =>
      let found :=
        if second == '-' then shortened rules name value
        else if second == 'h' then [.help rest]
        else []
      match found with
      | [found] => .ok found
      | [] =>
        if isNumber (second :: rest) || s.contains ' ' then .ok (.operand s) else .ok .unknown
      | _ => .error .misuse
  | _ => .ok (.operand s)

/-- What the arguments are. Behind a pair of dashes there are only operands. -/
def Argument.ofTexts (rules : List OptionRule) : List String → Except Misfit (List Argument)
  | [] => .ok []
  | s :: rest => do
    if s == "--" then return .separator :: rest.map .operand
    let found ← Argument.ofText rules s
    return found :: (← Argument.ofTexts rules rest)

/-- What was given, in order. -/
structure Given where
  operands : List String := []
  options : List (String × String) := []
  /-- Whether something was given that has no meaning. -/
  hasUnknown : Bool := false
  deriving Repr

namespace Given

def has (g : Given) (name : String) : Bool := g.options.any (·.1 == name)

def values (g : Given) (name : String) : List String :=
  (g.options.filter (·.1 == name)).map (·.2)

/-- The value that was given last. -/
def value? (g : Given) (name : String) : Option String := (g.values name).getLast?

def addOption (g : Given) (rule : OptionRule) (value : String) : Except Misfit Given :=
  let isAllowed := match rule.takes with
    | .oneOf choices => choices.contains value
    | _ => true
  if isAllowed then .ok { g with options := g.options ++ [(rule.name, value)] } else .error .misuse

/-- How a question for help ends. Short options may be glued together, and help comes before any that
is unknown. -/
def askedForHelp : (glued : List Char) → Misfit
  | '=' :: _ => .misuse
  | '-' :: _ => .misuse
  | 'h' :: rest => askedForHelp rest
  | _ => .help

/-- Takes arguments in order. A separator belongs to an operand on either side of it. -/
def take (g : Given) (afterOperand : Bool) : List Argument → Except Misfit Given
  | [] => .ok g
  | .operand s :: rest => take { g with operands := g.operands ++ [s] } true rest
  | .unknown :: rest => take { g with hasUnknown := true } false rest
  | .help glued :: _ => .error (askedForHelp glued)
  | .separator :: rest =>
    take { g with hasUnknown := g.hasUnknown || !(afterOperand || !rest.isEmpty) } false rest
  | .option rule value :: rest =>
    match rule.takes, value, rest with
    | .nothing, none, rest => do take (← g.addOption rule "") false rest
    | .nothing, some _, _ => .error .misuse
    | _, some value, rest => do take (← g.addOption rule value) false rest
    | _, none, .operand s :: rest => do take (← g.addOption rule s) false rest
    | _, none, _ => .error .misuse

end Given

/-- What the arguments give, which has to include just so many operands. -/
def Given.ofTexts (rules : List OptionRule) (operands : Nat) (args : List String) :
    Except Misfit Given := do
  let g ← Given.take {} false (← Argument.ofTexts rules args)
  if g.hasUnknown || g.operands.length != operands then .error .misuse
  return g

end Workflow.Command
