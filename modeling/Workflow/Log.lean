import Workflow.Fault

/-! Log records. -/

namespace Workflow

inductive LogLevel where
  | debug
  | info
  | warning
  | error
  deriving DecidableEq, Repr

namespace LogLevel

def name : LogLevel → String
  | .debug => "DEBUG"
  | .info => "INFO"
  | .warning => "WARNING"
  | .error => "ERROR"

def rank : LogLevel → Nat
  | .debug => 0
  | .info => 1
  | .warning => 2
  | .error => 3

end LogLevel

/-- A message of a part of the program. A record of an unexpected fault carries the fault. -/
structure LogRecord where
  logger : String
  level : LogLevel
  message : String
  fault : Option Fault := none

end Workflow
