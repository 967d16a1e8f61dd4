import ODataQuery.Calendar.Date
import ODataQuery.Calendar.Duration
import ODataQuery.Calendar.Instant
import ODataQuery.Calendar.TimeOfDay
import ODataQuery.Command.Arguments
import ODataQuery.Command.Run
import ODataQuery.Document.Filter
import ODataQuery.Document.Query
import ODataQuery.Document.Value
import ODataQuery.Event.Assembly
import ODataQuery.Event.Basic
import ODataQuery.Event.Listener
import ODataQuery.Expr.Basic
import ODataQuery.Expr.Fault
import ODataQuery.Expr.Function
import ODataQuery.Expr.Operator
import ODataQuery.Expr.Reader
import ODataQuery.Expr.Reader.Basic
import ODataQuery.Expr.Reader.Operand
import ODataQuery.Expr.Reader.Operation
import ODataQuery.Expr.Reader.Reference
import ODataQuery.Expr.StaticType
import ODataQuery.Json.Basic
import ODataQuery.Json.Reader
import ODataQuery.Literal.Number
import ODataQuery.Literal.Quoted
import ODataQuery.Literal.Reader
import ODataQuery.Literal.Shape
import ODataQuery.Literal.Typed
import ODataQuery.Main
import ODataQuery.Memory.Meaning
import ODataQuery.Memory.Predicate
import ODataQuery.Metadata.AllowList
import ODataQuery.Metadata.Entity
import ODataQuery.Metadata.EnumType
import ODataQuery.Numeric.Binary
import ODataQuery.Numeric.Decimal.Arithmetic
import ODataQuery.Numeric.Decimal.Basic
import ODataQuery.Numeric.Decimal.Floating
import ODataQuery.Numeric.FloatText
import ODataQuery.Numeric.NumberText
import ODataQuery.Numeric.Power
import ODataQuery.Numeric.Rounding
import ODataQuery.Numeric.Shortest
import ODataQuery.Pattern.Basic
import ODataQuery.Pattern.CharSet
import ODataQuery.Pattern.Reader
import ODataQuery.Pattern.Search
import ODataQuery.Proofs.Calendar.Date
import ODataQuery.Proofs.Calendar.StoredText
import ODataQuery.Proofs.Calendar.TimeOfDay
import ODataQuery.Proofs.Document.Agreement
import ODataQuery.Proofs.Document.Comparison
import ODataQuery.Proofs.Document.Equivalence
import ODataQuery.Proofs.Document.Matching
import ODataQuery.Proofs.Document.Negation
import ODataQuery.Proofs.Document.Portability
import ODataQuery.Proofs.Document.Rendering
import ODataQuery.Proofs.Document.Rules
import ODataQuery.Proofs.Document.Selection
import ODataQuery.Proofs.Document.Simulation
import ODataQuery.Proofs.Document.Storage
import ODataQuery.Proofs.Event.Assembly
import ODataQuery.Proofs.Event.Streaming
import ODataQuery.Proofs.Event.Walk
import ODataQuery.Proofs.Expr.Induction
import ODataQuery.Proofs.Expr.Typing
import ODataQuery.Proofs.Literal.Kind
import ODataQuery.Proofs.Metadata.AllowList
import ODataQuery.Proofs.Numeric.Digits
import ODataQuery.Proofs.Numeric.NumberText
import ODataQuery.Proofs.Pattern.Literal
import ODataQuery.Proofs.Reading.Authorization
import ODataQuery.Proofs.Reading.Basic
import ODataQuery.Proofs.Reading.Derivation
import ODataQuery.Proofs.Reading.Progress
import ODataQuery.Proofs.Reading.Refusal
import ODataQuery.Proofs.Reading.Rules
import ODataQuery.Proofs.Reading.Typing
import ODataQuery.Proofs.Result
import ODataQuery.Proofs.Order
import ODataQuery.Proofs.Text.Split
import ODataQuery.Proofs.Token.Scan
import ODataQuery.Proofs.Value.Guid
import ODataQuery.Proofs.Value.Typing
import ODataQuery.Query.Backend
import ODataQuery.Query.Check
import ODataQuery.Query.Option
import ODataQuery.Schema.Basic
import ODataQuery.Schema.Definition
import ODataQuery.Schema.Records
import ODataQuery.Search.Basic
import ODataQuery.Search.Predicate
import ODataQuery.Search.Token
import ODataQuery.Sql.Clause
import ODataQuery.Sql.Template
import ODataQuery.Sql.Value
import ODataQuery.Sql.Writer
import ODataQuery.Text.Base64
import ODataQuery.Text.Blank
import ODataQuery.Text.CaseVariant
import ODataQuery.Text.Letter
import ODataQuery.Text.LetterCase
import ODataQuery.Text.Located
import ODataQuery.Text.Ranges
import ODataQuery.Text.Split
import ODataQuery.Text.Word
import ODataQuery.Token.Basic
import ODataQuery.Token.Lexeme
import ODataQuery.Token.Scan
import ODataQuery.Value.Arithmetic
import ODataQuery.Value.Basic
import ODataQuery.Value.Call
import ODataQuery.Value.Guid
import ODataQuery.Value.Json
import ODataQuery.Value.Kind
import ODataQuery.Value.Logic
import ODataQuery.Value.Record
import ODataQuery.Proofs.Memory.Confinement
import ODataQuery.Proofs.Expr.Skeleton
import ODataQuery.Proofs.Sql.Twins
import ODataQuery.Proofs.Sql.Interpolation
import ODataQuery.Proofs.Sql.Rendering
import ODataQuery.Proofs.Sql.Writing
import ODataQuery.Proofs.Sql.Names
import ODataQuery.Proofs.Reading.Binders
import ODataQuery.Proofs.Sql.Scoping
import ODataQuery.Proofs.Calendar.Duration
import ODataQuery.Proofs.Literal.Quoted
import ODataQuery.Proofs.Numeric.Reading
import ODataQuery.Proofs.Text.Base64
import ODataQuery.Proofs.Literal.Shape
import ODataQuery.Proofs.Literal.Reading
import ODataQuery.Proofs.Token.Fitting
import ODataQuery.Proofs.Expr.Spelling
import ODataQuery.Proofs.Expr.Fitting
import ODataQuery.Proofs.Reading.Admission
import ODataQuery.Proofs.Reading.Legibility
import ODataQuery.Proofs.Reading.Chain
import ODataQuery.Proofs.Reading.Restoring
import ODataQuery.Proofs.Reading.RoundTrip
import ODataQuery.Proofs.Query.Accepted
import ODataQuery.Proofs.Sql.Numbering
import ODataQuery.Proofs.Event.Failure
import ODataQuery.Proofs.Memory.Compilation
import ODataQuery.Proofs.Expr.Operands
import ODataQuery.Proofs.Document.Compilation
import ODataQuery.Proofs.Sql.Compilation
import ODataQuery.Proofs.Query.Compilation
import ODataQuery.Proofs.Value.Coherence
import ODataQuery.Proofs.Value.Family
import ODataQuery.Proofs.Memory.Soundness
import ODataQuery.Proofs.Expr.Height
import ODataQuery.Proofs.Reading.Ending
import ODataQuery.Proofs.Reading.Nesting
import ODataQuery.Proofs.Search.Nesting
import ODataQuery.Proofs.Query.Nesting
import ODataQuery.Proofs.Sql.Reading
import ODataQuery.Proofs.Document.Equality
import ODataQuery.Proofs.Memory.Projection
import ODataQuery.Proofs.Value.Order
import ODataQuery.Proofs.Value.Positions
import ODataQuery.Proofs.Literal.Number
import ODataQuery.Proofs.Token.Numeral
import ODataQuery.Proofs.Memory.Sides
import ODataQuery.Proofs.Reading.Precedence
import ODataQuery.Proofs.Reading.Units
import ODataQuery.Proofs.Token.Tiling
import ODataQuery.Proofs.Reading.Deepening
import ODataQuery.Proofs.Query.Deepening
import ODataQuery.Proofs.Schema.Acyclic
import ODataQuery.Proofs.Schema.Members
import ODataQuery.Proofs.Schema.Records
import ODataQuery.Proofs.Search.Meaning
import ODataQuery.Proofs.Search.RoundTrip
import ODataQuery.Proofs.Calendar.DurationText
import ODataQuery.Proofs.Calendar.LeapSecond
import ODataQuery.Proofs.Literal.Typed
import ODataQuery.Proofs.Token.Lookahead
import ODataQuery.Proofs.Token.Respelling
import ODataQuery.Proofs.Reading.Parting
import ODataQuery.Proofs.Reading.Renaming
import ODataQuery.Proofs.Reading.Unreserved
import ODataQuery.Proofs.Event.Nesting
import ODataQuery.Proofs.Event.Acceptance
import ODataQuery.Proofs.Value.Arithmetic
import ODataQuery.Proofs.Command.Backend
