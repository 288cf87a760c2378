/-! Classes of values and of errors. -/

namespace Workflow.Script

/-- Classes of errors. -/
inductive ErrorClass where
  | base | exit | interrupted | generatorExit | exception | arithmetic | floatingPoint | overflow
  | zeroDivision | assertion | attribute | buffer | endOfFile | importing | moduleNotFound
  | lookup | index | key | memory | unknownName | unboundLocal | system | blockingIO | childProcess
  | connection | brokenPipe | connectionAborted | connectionRefused | connectionReset
  | fileExists | fileNotFound | interruptedCall | isADirectory | notADirectory | permission
  | processLookup | timeout | reference | runtime | notImplemented | recursion | stopIteration
  | stopAsyncIteration | grammar | indentation | tabs | internal | type | value | unicode
  | warning | userWarning | deprecation | runtimeWarning | stepflow | expression | retriable
  deriving DecidableEq, Repr

namespace ErrorClass

def all : List ErrorClass :=
  [.base, .exit, .interrupted, .generatorExit, .exception, .arithmetic, .floatingPoint,
   .overflow, .zeroDivision, .assertion, .attribute, .buffer, .endOfFile, .importing,
   .moduleNotFound, .lookup, .index, .key, .memory, .unknownName, .unboundLocal, .system, .blockingIO,
   .childProcess, .connection, .brokenPipe, .connectionAborted, .connectionRefused,
   .connectionReset, .fileExists, .fileNotFound, .interruptedCall, .isADirectory, .notADirectory,
   .permission, .processLookup, .timeout, .reference, .runtime, .notImplemented, .recursion,
   .stopIteration, .stopAsyncIteration, .grammar, .indentation, .tabs, .internal, .type, .value,
   .unicode, .warning, .userWarning, .deprecation, .runtimeWarning, .stepflow, .expression,
   .retriable]

def name : ErrorClass → String
  | .base => "BaseException"
  | .exit => "SystemExit"
  | .interrupted => "KeyboardInterrupt"
  | .generatorExit => "GeneratorExit"
  | .exception => "Exception"
  | .arithmetic => "ArithmeticError"
  | .floatingPoint => "FloatingPointError"
  | .overflow => "OverflowError"
  | .zeroDivision => "ZeroDivisionError"
  | .assertion => "AssertionError"
  | .attribute => "AttributeError"
  | .buffer => "BufferError"
  | .endOfFile => "EOFError"
  | .importing => "ImportError"
  | .moduleNotFound => "ModuleNotFoundError"
  | .lookup => "LookupError"
  | .index => "IndexError"
  | .key => "KeyError"
  | .memory => "MemoryError"
  | .unknownName => "NameError"
  | .unboundLocal => "UnboundLocalError"
  | .system => "OSError"
  | .blockingIO => "BlockingIOError"
  | .childProcess => "ChildProcessError"
  | .connection => "ConnectionError"
  | .brokenPipe => "BrokenPipeError"
  | .connectionAborted => "ConnectionAbortedError"
  | .connectionRefused => "ConnectionRefusedError"
  | .connectionReset => "ConnectionResetError"
  | .fileExists => "FileExistsError"
  | .fileNotFound => "FileNotFoundError"
  | .interruptedCall => "InterruptedError"
  | .isADirectory => "IsADirectoryError"
  | .notADirectory => "NotADirectoryError"
  | .permission => "PermissionError"
  | .processLookup => "ProcessLookupError"
  | .timeout => "TimeoutError"
  | .reference => "ReferenceError"
  | .runtime => "RuntimeError"
  | .notImplemented => "NotImplementedError"
  | .recursion => "RecursionError"
  | .stopIteration => "StopIteration"
  | .stopAsyncIteration => "StopAsyncIteration"
  | .grammar => "SyntaxError"
  | .indentation => "IndentationError"
  | .tabs => "TabError"
  | .internal => "SystemError"
  | .type => "TypeError"
  | .value => "ValueError"
  | .unicode => "UnicodeError"
  | .warning => "Warning"
  | .userWarning => "UserWarning"
  | .deprecation => "DeprecationWarning"
  | .runtimeWarning => "RuntimeWarning"
  | .stepflow => "StepflowError"
  | .expression => "ExpressionError"
  | .retriable => "StepRetriableError"

def parent? : ErrorClass → Option ErrorClass
  | .base => none
  | .exit => some .base
  | .interrupted => some .base
  | .generatorExit => some .base
  | .exception => some .base
  | .arithmetic => some .exception
  | .floatingPoint => some .arithmetic
  | .overflow => some .arithmetic
  | .zeroDivision => some .arithmetic
  | .assertion => some .exception
  | .attribute => some .exception
  | .buffer => some .exception
  | .endOfFile => some .exception
  | .importing => some .exception
  | .moduleNotFound => some .importing
  | .lookup => some .exception
  | .index => some .lookup
  | .key => some .lookup
  | .memory => some .exception
  | .unknownName => some .exception
  | .unboundLocal => some .unknownName
  | .system => some .exception
  | .blockingIO => some .system
  | .childProcess => some .system
  | .connection => some .system
  | .brokenPipe => some .connection
  | .connectionAborted => some .connection
  | .connectionRefused => some .connection
  | .connectionReset => some .connection
  | .fileExists => some .system
  | .fileNotFound => some .system
  | .interruptedCall => some .system
  | .isADirectory => some .system
  | .notADirectory => some .system
  | .permission => some .system
  | .processLookup => some .system
  | .timeout => some .system
  | .reference => some .exception
  | .runtime => some .exception
  | .notImplemented => some .runtime
  | .recursion => some .runtime
  | .stopIteration => some .exception
  | .stopAsyncIteration => some .exception
  | .grammar => some .exception
  | .indentation => some .grammar
  | .tabs => some .indentation
  | .internal => some .exception
  | .type => some .exception
  | .value => some .exception
  | .unicode => some .value
  | .warning => some .exception
  | .userWarning => some .warning
  | .deprecation => some .warning
  | .runtimeWarning => some .warning
  | .stepflow => some .exception
  | .expression => some .value
  | .retriable => some .exception

def ofName? (s : String) : Option ErrorClass := all.find? (·.name == s)

def lineage : (steps : Nat) → ErrorClass → List ErrorClass
  | 0, c => [c]
  | steps + 1, c =>
    match c.parent? with
    | none => [c]
    | some up => c :: lineage steps up

/-- Whether an error of the first class is one of the second. -/
def isA (c ancestor : ErrorClass) : Bool :=
  (lineage 6 c).contains ancestor || (c == .expression && ancestor == .stepflow)

/-- Errors of the operating system, which are written with their number. -/
def isSystem (c : ErrorClass) : Bool := c.isA .system

end ErrorClass

/-- Classes of the other values. -/
inductive Kind where
  | none | ellipsis | bool | int | float | str | tuple | list | dict | set | range | slice
  | type | function | builtinFunction | methodDescriptor
  | listIterator | tupleIterator | textIterator | asciiTextIterator | keyIterator | valueIterator
  | itemIterator | setIterator | rangeIterator | longRangeIterator | enumerate | zip | generator
  | keys | values | items
  | namespace | inputRequired | stepRef | subflowBlock | loopBlock | controlMarker | flowState
  | date | moment | coroutine
  deriving DecidableEq, Repr

def Kind.name : Kind → String
  | .none => "NoneType"
  | .ellipsis => "ellipsis"
  | .bool => "bool"
  | .int => "int"
  | .float => "float"
  | .str => "str"
  | .tuple => "tuple"
  | .list => "list"
  | .dict => "dict"
  | .set => "set"
  | .range => "range"
  | .slice => "slice"
  | .type => "type"
  | .function => "function"
  | .builtinFunction => "builtin_function_or_method"
  | .methodDescriptor => "method_descriptor"
  | .listIterator => "list_iterator"
  | .tupleIterator => "tuple_iterator"
  | .textIterator => "str_iterator"
  | .asciiTextIterator => "str_ascii_iterator"
  | .keyIterator => "dict_keyiterator"
  | .valueIterator => "dict_valueiterator"
  | .itemIterator => "dict_itemiterator"
  | .setIterator => "set_iterator"
  | .rangeIterator => "range_iterator"
  | .longRangeIterator => "longrange_iterator"
  | .enumerate => "enumerate"
  | .zip => "zip"
  | .generator => "generator"
  | .keys => "dict_keys"
  | .values => "dict_values"
  | .items => "dict_items"
  | .namespace => "SimpleNamespace"
  | .inputRequired => "InputRequired"
  | .stepRef => "StepRef"
  | .subflowBlock => "SubflowBlock"
  | .loopBlock => "LoopBlock"
  | .controlMarker => "ControlMarker"
  | .flowState => "FlowState"
  | .date => "date"
  | .moment => "datetime"
  | .coroutine => "coroutine"

inductive Class where
  | kind (k : Kind)
  | error (c : ErrorClass)
  deriving DecidableEq, Repr

def Class.name : Class → String
  | .kind k => k.name
  | .error c => c.name

/-- The module that a class is written with, unless it is a basic one. -/
def Class.home : Class → Option String
  | .error .retriable => some "stepflow.exceptions"
  | .error .expression => some "stepflow.exceptions"
  | .error .stepflow => some "stepflow.exceptions"
  | .kind .inputRequired => some "stepflow.exec.step"
  | .kind .stepRef => some "stepflow.workflow.schema"
  | .kind .subflowBlock => some "stepflow.workflow.schema"
  | .kind .loopBlock => some "stepflow.workflow.schema"
  | .kind .controlMarker => some "stepflow.workflow.schema"
  | .kind .flowState => some "stepflow.state"
  | .kind .namespace => some "types"
  | .kind .date => some "datetime"
  | .kind .moment => some "datetime"
  | _ => none

/-- The name of a class as the refusals of operators and attributes give it. -/
def Class.fullName (c : Class) : String :=
  match c with
  | .kind .namespace => "types.SimpleNamespace"
  | .kind .date => "datetime.date"
  | .kind .moment => "datetime.datetime"
  | c => c.name

def Class.text (c : Class) : String :=
  match c.home with
  | some home => s!"<class '{home}.{c.name}'>"
  | none => s!"<class '{c.name}'>"

end Workflow.Script
