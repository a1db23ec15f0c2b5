import RowConsole.Main
import RowConsole.Proofs.Session.Atomicity
import RowConsole.Proofs.Script.FrameIsolation
import RowConsole.Proofs.Script.Termination
import RowConsole.Proofs.Script.RoundTrip
import RowConsole.Proofs.Script.Invariant
import RowConsole.Proofs.Session.BindingStore
import RowConsole.Proofs.Script.Grammar.Taking
import RowConsole.Proofs.Script.Grammar.Seam
import RowConsole.Proofs.Script.Grammar.Locality
import RowConsole.Proofs.Script.Grammar.Heads
import RowConsole.Proofs.Script.Grammar.Front
import RowConsole.Proofs.Script.Grammar.Pieces
import RowConsole.Proofs.Script.Positions
import RowConsole.Proofs.Script.Token.Cutting
import RowConsole.Proofs.Script.Composition
import RowConsole.Proofs.Script.BareBody
import RowConsole.Proofs.Script.Moved.Values
import RowConsole.Proofs.Script.Moved.Operations
import RowConsole.Proofs.Script.Moved.Runs
import RowConsole.Proofs.Script.Moved.Evaluation
import RowConsole.Proofs.Script.FirstLine
import RowConsole.Proofs.Session.Routing
import RowConsole.Proofs.Session.PlainStore
import RowConsole.Proofs.Session.WholeRun
import RowConsole.Proofs.Script.Compared.CallDepth
import RowConsole.Proofs.Session.Registry
import RowConsole.Proofs.Script.Grammar.Indexed.Machine
import RowConsole.Proofs.Script.Grammar.Indexed.Agreement
import RowConsole.Proofs.Script.Grammar.Indexed.Procedures
import RowConsole.Proofs.Script.Grammar.Indexed.Totality
import RowConsole.Proofs.Script.Grammar.Enclosing
import RowConsole.Proofs.Session.SingleInputs
import RowConsole.Proofs.Session.Classification
import RowConsole.Proofs.Script.Grammar.Brackets
import RowConsole.Proofs.Script.Token.Enclosed
import RowConsole.Proofs.Session.CompleteInputs
import RowConsole.Proofs.Script.Literal.Spelled
import RowConsole.Proofs.Script.Literal.Evaluated
import RowConsole.Proofs.Session.Seeding
import RowConsole.Proofs.Session.Scripts
import RowConsole.Proofs.Session.Transparency
import RowConsole.Proofs.Script.Assignment.CallSites
import RowConsole.Proofs.Script.Assignment.Once
import RowConsole.Proofs.Script.Grammar.Binding
import RowConsole.Proofs.Script.Variables
import RowConsole.Proofs.Script.Closures
import RowConsole.Proofs.Script.Assignment.Slots
import RowConsole.Proofs.Script.Assignment.Paths
import RowConsole.Proofs.Script.Bindings
import RowConsole.Proofs.Session.BoundNames
import RowConsole.Proofs.Script.Token.Offsets
import RowConsole.Proofs.Script.Grammar.Blame
import RowConsole.Proofs.Script.SourcePositions
import RowConsole.Proofs.Session.Identifiers
import RowConsole.Proofs.Script.Token.Spaced
import RowConsole.Proofs.Script.Grammar.Breaks.Places
import RowConsole.Proofs.Script.Grammar.Breaks.Facing
import RowConsole.Proofs.Script.Grammar.Breaks.Tracking
import RowConsole.Proofs.Script.Grammar.Breaks.Procedures
import RowConsole.Proofs.Script.Grammar.Breaks.Programs
import RowConsole.Proofs.Script.Token.Dividing
import RowConsole.Proofs.Script.LineBreaks
import RowConsole.Proofs.Script.Failure.Runs
import RowConsole.Proofs.Script.Failure.Crashes
import RowConsole.Proofs.Script.Observed.CallChain
import RowConsole.Proofs.Script.Observed.Placement
import RowConsole.Proofs.Script.Observed.LoopControl
import RowConsole.Proofs.Script.KeyOrder
import RowConsole.Proofs.Script.Callbacks
import RowConsole.Proofs.Data.StableSort
import RowConsole.Proofs.Data.Merging
import RowConsole.Proofs.Data.RunSort
import RowConsole.Proofs.Script.Sorting
import RowConsole.Proofs.Script.Queries
import RowConsole.Proofs.Script.Grouping
import RowConsole.Proofs.Script.Equality
import RowConsole.Proofs.Script.Coherence
import RowConsole.Proofs.Script.Audited
import RowConsole.Proofs.Script.DistinctKeys
import RowConsole.Proofs.Script.ExactIntegers
import RowConsole.Proofs.Script.Indexing
import RowConsole.Proofs.Session.Completing
import RowConsole.Proofs.Session.LoadedTables
import RowConsole.Proofs.Session.TypedDefinitions
