import FuzzyAlgebra.Binary64.Basic
import FuzzyAlgebra.Binary64.Exp
import FuzzyAlgebra.Binary64.Reading
import FuzzyAlgebra.Binary64.Shortest
import FuzzyAlgebra.Binary64.Text
import FuzzyAlgebra.Calendar
import FuzzyAlgebra.Definitions.File
import FuzzyAlgebra.Definitions.Load
import FuzzyAlgebra.Definitions.Rules
import FuzzyAlgebra.Definitions.Schema
import FuzzyAlgebra.Degree
import FuzzyAlgebra.Degree.Checked
import FuzzyAlgebra.ElementType
import FuzzyAlgebra.Error.Custom
import FuzzyAlgebra.Error.Failure
import FuzzyAlgebra.Error.Kind
import FuzzyAlgebra.Error.Report
import FuzzyAlgebra.Files
import FuzzyAlgebra.FuzzySet.Basic
import FuzzyAlgebra.FuzzySet.Combine
import FuzzyAlgebra.FuzzySet.Depth
import FuzzyAlgebra.FuzzySet.Expression
import FuzzyAlgebra.FuzzySet.Membership
import FuzzyAlgebra.Gate
import FuzzyAlgebra.Logging.CallLog
import FuzzyAlgebra.Logging.Context
import FuzzyAlgebra.Logging.Directory
import FuzzyAlgebra.Logging.FieldForm
import FuzzyAlgebra.Logging.Package
import FuzzyAlgebra.Logging.Record
import FuzzyAlgebra.Logging.Signature
import FuzzyAlgebra.Logging.Template
import FuzzyAlgebra.MembershipFunction
import FuzzyAlgebra.Mishap
import FuzzyAlgebra.Operator
import FuzzyAlgebra.Operator.Degrees
import FuzzyAlgebra.Package
import FuzzyAlgebra.Power
import FuzzyAlgebra.Project
import FuzzyAlgebra.Proofs.Atomic
import FuzzyAlgebra.Proofs.Binary64.Exp
import FuzzyAlgebra.Proofs.Binary64.Monotone
import FuzzyAlgebra.Proofs.Binary64.Negation
import FuzzyAlgebra.Proofs.Binary64.Order
import FuzzyAlgebra.Proofs.Binary64.Quotient
import FuzzyAlgebra.Proofs.Binary64.Resolution
import FuzzyAlgebra.Proofs.Binary64.Rounding
import FuzzyAlgebra.Proofs.Definitions.Load
import FuzzyAlgebra.Proofs.Definitions.Outcome
import FuzzyAlgebra.Proofs.Definitions.Populate
import FuzzyAlgebra.Proofs.Definitions.RoundTrip
import FuzzyAlgebra.Proofs.Definitions.Schema
import FuzzyAlgebra.Proofs.Definitions.Totality
import FuzzyAlgebra.Proofs.Definitions.Variables
import FuzzyAlgebra.Proofs.ElementType
import FuzzyAlgebra.Proofs.Error.Origin
import FuzzyAlgebra.Proofs.Error.Taxonomy
import FuzzyAlgebra.Proofs.FuzzySet.AlphaCut
import FuzzyAlgebra.Proofs.FuzzySet.Bounds
import FuzzyAlgebra.Proofs.FuzzySet.Combine
import FuzzyAlgebra.Proofs.FuzzySet.Composition
import FuzzyAlgebra.Proofs.FuzzySet.Construction
import FuzzyAlgebra.Proofs.FuzzySet.Crisp
import FuzzyAlgebra.Proofs.FuzzySet.DeMorgan
import FuzzyAlgebra.Proofs.FuzzySet.Depth
import FuzzyAlgebra.Proofs.FuzzySet.ElementType
import FuzzyAlgebra.Proofs.FuzzySet.Evaluation
import FuzzyAlgebra.Proofs.FuzzySet.Factoring
import FuzzyAlgebra.Proofs.FuzzySet.Graph
import FuzzyAlgebra.Proofs.FuzzySet.Lattice
import FuzzyAlgebra.Proofs.FuzzySet.Laziness
import FuzzyAlgebra.Proofs.FuzzySet.Polarity
import FuzzyAlgebra.Proofs.FuzzySet.Traversal
import FuzzyAlgebra.Proofs.Gate
import FuzzyAlgebra.Proofs.Gate.Program
import FuzzyAlgebra.Proofs.Keyed
import FuzzyAlgebra.Proofs.Logging.Alarm
import FuzzyAlgebra.Proofs.Logging.CallLog
import FuzzyAlgebra.Proofs.Logging.Context
import FuzzyAlgebra.Proofs.Logging.Emission
import FuzzyAlgebra.Proofs.Logging.Host
import FuzzyAlgebra.Proofs.Logging.Settings
import FuzzyAlgebra.Proofs.Operator.Degrees
import FuzzyAlgebra.Proofs.Operator.Name
import FuzzyAlgebra.Proofs.Operator.Threshold
import FuzzyAlgebra.Proofs.Operator.Units
import FuzzyAlgebra.Proofs.Scope.Block
import FuzzyAlgebra.Proofs.Scope.Bracket
import FuzzyAlgebra.Proofs.Scope.Failure
import FuzzyAlgebra.Proofs.Scope.Frame
import FuzzyAlgebra.Proofs.Scope.History
import FuzzyAlgebra.Proofs.Scope.Operation
import FuzzyAlgebra.Proofs.Scope.Run
import FuzzyAlgebra.Proofs.Scope.Stack
import FuzzyAlgebra.Proofs.Scope.Typing
import FuzzyAlgebra.Proofs.Shape.Degree
import FuzzyAlgebra.Proofs.Shape.Mirror
import FuzzyAlgebra.Proofs.Shape.Ramp
import FuzzyAlgebra.Proofs.Shape.Unimodal
import FuzzyAlgebra.Proofs.Trace
import FuzzyAlgebra.Proofs.Value.Float
import FuzzyAlgebra.Scope.Frame
import FuzzyAlgebra.Scope.Stack
import FuzzyAlgebra.Series
import FuzzyAlgebra.Session
import FuzzyAlgebra.Shape
import FuzzyAlgebra.Text.Blank
import FuzzyAlgebra.Text.Cased
import FuzzyAlgebra.Text.Digit
import FuzzyAlgebra.Text.Letter
import FuzzyAlgebra.Text.Lower
import FuzzyAlgebra.Text.Order
import FuzzyAlgebra.Text.Printable
import FuzzyAlgebra.Text.Quoted
import FuzzyAlgebra.Text.Reader
import FuzzyAlgebra.Text.SixBits
import FuzzyAlgebra.Text.Surrogate
import FuzzyAlgebra.Text.Utf8
import FuzzyAlgebra.Toml.Document
import FuzzyAlgebra.Toml.Scalar
import FuzzyAlgebra.Toml.Value
import FuzzyAlgebra.Trace
import FuzzyAlgebra.Value.Array
import FuzzyAlgebra.Value.ArrayText
import FuzzyAlgebra.Value.Basic
import FuzzyAlgebra.Value.Conversion
import FuzzyAlgebra.Value.Decimal
import FuzzyAlgebra.Value.Number
import FuzzyAlgebra.Value.Numeral
import FuzzyAlgebra.Value.Order
import FuzzyAlgebra.Value.Printer
import FuzzyAlgebra.Value.Slots
import FuzzyAlgebra.Yaml.Building
import FuzzyAlgebra.Yaml.Cursor
import FuzzyAlgebra.Yaml.Document
import FuzzyAlgebra.Yaml.Entry
import FuzzyAlgebra.Yaml.Node
import FuzzyAlgebra.Yaml.Node.Reader
import FuzzyAlgebra.Yaml.Number
import FuzzyAlgebra.Yaml.Outline
import FuzzyAlgebra.Yaml.Source
import FuzzyAlgebra.Yaml.Tag
import FuzzyAlgebra.Yaml.Timestamp
import FuzzyAlgebra.Yaml.Token
import FuzzyAlgebra.Yaml.Token.Lexer
import FuzzyAlgebra.Yaml.Token.Property
import FuzzyAlgebra.Yaml.Token.Scalar
import FuzzyAlgebra.Proofs.FuzzySet.Complement
import FuzzyAlgebra.Proofs.Shape.Plateau
import FuzzyAlgebra.Proofs.FuzzySet.Leaf
import FuzzyAlgebra.Proofs.Operator.NaN
import FuzzyAlgebra.Proofs.Scope.Names
import FuzzyAlgebra.Proofs.Logging.CallTree
import FuzzyAlgebra.Proofs.Project
import FuzzyAlgebra.Proofs.Text.Lower
import FuzzyAlgebra.Proofs.Text.Utf8
import FuzzyAlgebra.Proofs.Yaml.Source
import FuzzyAlgebra.Proofs.Yaml.Problem
import FuzzyAlgebra.Proofs.Yaml.Token
import FuzzyAlgebra.Proofs.Yaml.Node
import FuzzyAlgebra.Proofs.Yaml.Document
import FuzzyAlgebra.Proofs.Definitions.File
