import Workflow.Text.Blank
import Workflow.Text.Quoted
import Workflow.Text.Case
import Workflow.Text.Letter
import Workflow.Text.Digit
import Workflow.Number.Notation
import Workflow.Number.Reading
import Workflow.Script.Term
import Workflow.Script.Token
import Workflow.Script.Parser
import Workflow.Script.Statement
import Workflow.Script.Restriction
import Workflow.Script.Placement
import Workflow.Script.Value
import Workflow.Script.Equality
import Workflow.Script.Render
import Workflow.Script.Iteration
import Workflow.Script.Arithmetic
import Workflow.Script.Layout
import Workflow.Script.Attribute
import Workflow.Script.Index
import Workflow.Script.Percent
import Workflow.Script.Operator
import Workflow.Script.Methods
import Workflow.Script.Builtins
import Workflow.Script.Scope
import Workflow.Script.Call
import Workflow.Script.Comprehension
import Workflow.Script.Eval
import Workflow.Json.Reader
import Workflow.Json.Printer
import Workflow.Script.Evaluator
import Workflow.Script.Data
import Workflow.Schema.Item
import Workflow.Schema.Path
import Workflow.Schema.Draft
import Workflow.Schema.Normal
import Workflow.Schema.Walk
import Workflow.Fault
import Workflow.Engine.Host
import Workflow.Engine.Traversal
import Workflow.Engine.Position
import Workflow.Log
import Workflow.Step
import Workflow.Result
import Workflow.World
import Workflow.Trace
import Workflow.Executor
import Workflow.Registration
import Workflow.State
import Workflow.Call
import Workflow.Number.Limit
import Workflow.Files.FilePath
import Workflow.Files.Tree
import Workflow.Store
import Workflow.Yaml.Cursor
import Workflow.Yaml.Scalar
import Workflow.Yaml.Token
import Workflow.Yaml.Lexer
import Workflow.Script.Numeral
import Workflow.Yaml.Tag
import Workflow.Yaml.Node
import Workflow.Yaml.Grammar
import Workflow.Yaml.Value
import Workflow.Document
import Workflow.Command.Arguments
import Workflow.Command.Invocation
import Workflow.Command.Outcome
import Workflow.Main
import Workflow.Proofs.Heaps
import Workflow.Proofs.Deeds
import Workflow.Proofs.Program
import Workflow.Proofs.Performance
import Workflow.Proofs.Positions
import Workflow.Proofs.Endings
import Workflow.Proofs.Openings
import Workflow.Proofs.Names
import Workflow.Proofs.Waiting
import Workflow.Proofs.Splice
import Workflow.Proofs.Account
import Workflow.Proofs.Calls
import Workflow.Proofs.Telling
import Workflow.Proofs.Starts
import Workflow.Proofs.Reached
import Workflow.Proofs.Retries
import Workflow.Proofs.Contexts
import Workflow.Proofs.Chains
import Workflow.Proofs.Snapshots
import Workflow.Proofs.Halts
import Workflow.Proofs.Refusals
import Workflow.Proofs.Keeping
import Workflow.Proofs.Registered
import Workflow.Proofs.Fallible
import Workflow.Proofs.Files
import Workflow.Proofs.Checks
import Workflow.Proofs.Quiet
import Workflow.Proofs.Stored
import Workflow.Proofs.Written
import Workflow.Proofs.Outcomes
import Workflow.Proofs.Moments
import Workflow.Proofs.Chronicle
import Workflow.Proofs.Requests
import Workflow.Proofs.Places
import Workflow.Proofs.Inputs
import Workflow.Proofs.Walks
import Workflow.Proofs.Registrations
import Workflow.Proofs.Resolution
import Workflow.Proofs.Shapes
import Workflow.Proofs.Brackets
import Workflow.Proofs.Traces
import Workflow.Proofs.Consumption
import Workflow.Proofs.Answers
import Workflow.Proofs.Rejections
import Workflow.Proofs.ExitCodes
import Workflow.Proofs.Blindness
import Workflow.Proofs.Deafness
import Workflow.Proofs.Observers
import Workflow.Proofs.Listeners
import Workflow.Proofs.Grammar
import Workflow.Proofs.Touched
import Workflow.Proofs.Failures
import Workflow.Proofs.Raising
import Workflow.Proofs.Offences
import Workflow.Proofs.Flaws
import Workflow.Proofs.Defects
import Workflow.Proofs.Reasons
import Workflow.Proofs.Idempotence
import Workflow.Proofs.Notations
import Workflow.Proofs.Caching
import Workflow.Proofs.Problems
import Workflow.Proofs.Expansion
import Workflow.Proofs.Verdicts
import Workflow.Proofs.Validation
import Workflow.Proofs.Sources
import Workflow.Proofs.Stacked
import Workflow.Proofs.Stacks
import Workflow.Proofs.Decimals
import Workflow.Proofs.JsonParts
import Workflow.Proofs.JsonTexts
import Workflow.Proofs.Saving
import Workflow.Proofs.Sharing
import Workflow.Proofs.Independence
import Workflow.Proofs.Acceptance
import Workflow.Proofs.Building
import Workflow.Proofs.Publicity
import Workflow.Proofs.Steadiness
import Workflow.Proofs.Machines
import Workflow.Proofs.Evaluations
import Workflow.Proofs.Privacy
import Workflow.Proofs.PathTexts
import Workflow.Proofs.Addresses
import Workflow.Proofs.Renamings
import Workflow.Proofs.Akin
import Workflow.Proofs.Renderings
import Workflow.Proofs.Relocations
import Workflow.Proofs.Portable
import Workflow.Proofs.Continuations
import Workflow.Proofs.Trees
import Workflow.Proofs.Remaking
import Workflow.Proofs.YamlValues
import Workflow.Proofs.Rechecking
import Workflow.Proofs.Registrable
import Workflow.Proofs.Respelling
import Workflow.Proofs.Rebuilding
import Workflow.Proofs.Grafting
import Workflow.Proofs.Retelling
import Workflow.Proofs.PlainTexts
import Workflow.Proofs.Givens
import Workflow.Proofs.Reloading
import Workflow.Proofs.Writability
import Workflow.Proofs.Concluding
import Workflow.Proofs.Resumptions
import Workflow.Proofs.CommandChains
