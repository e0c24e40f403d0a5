import GridScript.Actions.Basic
import GridScript.Actions.Table
import GridScript.Catalogue.Basic
import GridScript.Catalogue.Standard
import GridScript.Catalogue.Stored
import GridScript.Compile.Cache
import GridScript.Compile.Diagnostic
import GridScript.Compile.Line
import GridScript.Compile.Nesting
import GridScript.Decimal.Layout
import GridScript.Decimal.Reader
import GridScript.Decimal.Shortest
import GridScript.Engine.Basic
import GridScript.Engine.Slice
import GridScript.Engine.Tick
import GridScript.Engine.Trigger
import GridScript.Formula.Basic
import GridScript.Formula.Eval
import GridScript.Formula.Outline
import GridScript.Formula.Parser
import GridScript.Formula.Token
import GridScript.Function.Definition
import GridScript.Function.Parameter
import GridScript.Function.Registry
import GridScript.Function.Tally
import GridScript.Function.Validation
import GridScript.Grid.Layout
import GridScript.Grid.Position
import GridScript.Grid.World
import GridScript.Host.Basic
import GridScript.Host.Minimal
import GridScript.Host.Recording
import GridScript.Json.Basic
import GridScript.Json.Numeral
import GridScript.Json.Reader
import GridScript.Json.Record
import GridScript.Json.Writer
import GridScript.Ledger.Basic
import GridScript.Ledger.Call
import GridScript.Machine.Basic
import GridScript.Machine.Node
import GridScript.Machine.Step
import GridScript.Machine.Surroundings
import GridScript.Number.Basic
import GridScript.Number.Modulus
import GridScript.Program.Basic
import GridScript.Program.Node
import GridScript.Program.Script
import GridScript.Program.Stored
import GridScript.Proofs.Accounts
import GridScript.Proofs.Arrivals
import GridScript.Proofs.Binding
import GridScript.Proofs.Brackets
import GridScript.Proofs.Branching
import GridScript.Proofs.Budget
import GridScript.Proofs.Careers
import GridScript.Proofs.Completion
import GridScript.Proofs.Conservation
import GridScript.Proofs.Counts
import GridScript.Proofs.Courses
import GridScript.Proofs.Deadlines
import GridScript.Proofs.Deeds
import GridScript.Proofs.Detachment
import GridScript.Proofs.Dictionaries
import GridScript.Proofs.Enclosure
import GridScript.Proofs.Exchange
import GridScript.Proofs.Expiry
import GridScript.Proofs.Failures
import GridScript.Proofs.Forks
import GridScript.Proofs.Formation
import GridScript.Proofs.Frames
import GridScript.Proofs.Freshness
import GridScript.Proofs.Grammar
import GridScript.Proofs.Histories
import GridScript.Proofs.Incidents
import GridScript.Proofs.Interruption
import GridScript.Proofs.Invocation
import GridScript.Proofs.Isolation
import GridScript.Proofs.Iteration
import GridScript.Proofs.Journal
import GridScript.Proofs.Layers
import GridScript.Proofs.Lifecycle
import GridScript.Proofs.Likeness
import GridScript.Proofs.Limits
import GridScript.Proofs.Linking
import GridScript.Proofs.Locality
import GridScript.Proofs.Meaning
import GridScript.Proofs.Moves
import GridScript.Proofs.Occupancy
import GridScript.Proofs.Operations
import GridScript.Proofs.Ownership
import GridScript.Proofs.Passages
import GridScript.Proofs.Persistence
import GridScript.Proofs.Preorder
import GridScript.Proofs.Punctuality
import GridScript.Proofs.Realisation
import GridScript.Proofs.Records
import GridScript.Proofs.Refusals
import GridScript.Proofs.Regeneration
import GridScript.Proofs.Registration
import GridScript.Proofs.Remains
import GridScript.Proofs.Repair
import GridScript.Proofs.Reports
import GridScript.Proofs.Requests
import GridScript.Proofs.Restoration
import GridScript.Proofs.Returning
import GridScript.Proofs.Schedule
import GridScript.Proofs.Serving
import GridScript.Proofs.Shape
import GridScript.Proofs.Shifts
import GridScript.Proofs.Simulation
import GridScript.Proofs.Slots
import GridScript.Proofs.Standing
import GridScript.Proofs.Stints
import GridScript.Proofs.Termination
import GridScript.Proofs.Turns
import GridScript.Random.Basic
import GridScript.Random.ChaCha
import GridScript.Run.Error
import GridScript.Run.Notice
import GridScript.Settings
import GridScript.Store.ArrivalMap
import GridScript.Store.SlotMap
import GridScript.Store.SortedMap
import GridScript.Store.Spot
import GridScript.Text.Blank
import GridScript.Text.CaseFold
import GridScript.Text.CodeSet
import GridScript.Text.Label
import GridScript.Text.Letter
import GridScript.Text.Lowercase
import GridScript.Text.Quoted
import GridScript.Value.Basic
import GridScript.Value.Compare
import GridScript.Value.Convert
import GridScript.Value.Fault
import GridScript.Value.Kind
import GridScript.Value.Plain
import GridScript.Value.Stored
import GridScript.Proofs.Outermost
import GridScript.Proofs.Closings
import GridScript.Proofs.Comparisons
import GridScript.Proofs.Containers
import GridScript.Proofs.Headers
import GridScript.Proofs.ReturnValues
import GridScript.Proofs.Spelling
import GridScript.Proofs.Integers
import GridScript.Proofs.Modulus
import GridScript.Proofs.Interchange
import GridScript.Proofs.Arities
import GridScript.Proofs.Residue
import GridScript.Proofs.Identities
import GridScript.Proofs.Editions
import GridScript.Proofs.Wear
