import TypedCalc.Binary64.Arithmetic
import TypedCalc.Binary64.Basic
import TypedCalc.Binary64.Bits
import TypedCalc.Binary64.Decimal
import TypedCalc.Binary64.Elementary
import TypedCalc.Calculator
import TypedCalc.CommandLine.Options
import TypedCalc.CommandLine.Run
import TypedCalc.Datum.Basic
import TypedCalc.Datum.Json
import TypedCalc.Datum.Reading
import TypedCalc.Datum.Yaml.Block
import TypedCalc.Datum.Yaml.Document
import TypedCalc.Datum.Yaml.Fault
import TypedCalc.Datum.Yaml.Flow
import TypedCalc.Datum.Yaml.Node
import TypedCalc.Datum.Yaml.Plain
import TypedCalc.Datum.Yaml.Printer
import TypedCalc.Datum.Yaml.Scalar
import TypedCalc.Datum.Yaml.Timestamp
import TypedCalc.Evaluation.Basic
import TypedCalc.Evaluation.Fault
import TypedCalc.Expr.Basic
import TypedCalc.Expr.Fault
import TypedCalc.Expr.OfTokens
import TypedCalc.Format
import TypedCalc.History
import TypedCalc.HistoryFile
import TypedCalc.Host.Basic
import TypedCalc.Host.Machine
import TypedCalc.Host.Path
import TypedCalc.Main
import TypedCalc.Measure
import TypedCalc.NumberType
import TypedCalc.Operand.Apply
import TypedCalc.Operand.Fault
import TypedCalc.Operand.Operator
import TypedCalc.Proofs.Binary64.Rounding
import TypedCalc.Proofs.Evaluation.Chain
import TypedCalc.Proofs.Evaluation.Fault
import TypedCalc.Proofs.Expr.Blame
import TypedCalc.Proofs.Expr.Grammar
import TypedCalc.Proofs.Expr.Places
import TypedCalc.Proofs.Expr.Run
import TypedCalc.Proofs.Expr.Steps
import TypedCalc.Proofs.HistoryFile
import TypedCalc.Proofs.Operand.Fault
import TypedCalc.Proofs.Registry.Builtin
import TypedCalc.Proofs.Result
import TypedCalc.Proofs.Safety
import TypedCalc.Proofs.Token.Scan
import TypedCalc.Registry.Basic
import TypedCalc.Registry.Builtin
import TypedCalc.Report
import TypedCalc.Settings
import TypedCalc.SettingsFile
import TypedCalc.Text.Blank
import TypedCalc.Text.DecimalDigit
import TypedCalc.Text.Numeral
import TypedCalc.Text.Pieces
import TypedCalc.Text.Printable
import TypedCalc.Text.Quoted
import TypedCalc.Text.Similarity
import TypedCalc.Token.Basic
import TypedCalc.Token.Fault
import TypedCalc.Token.Scan
import TypedCalc.Value.Basic
import TypedCalc.Value.Cast
import TypedCalc.Value.Convert
import TypedCalc.Proofs.Binary64.Decimal
import TypedCalc.Proofs.Binary64.Text
import TypedCalc.Proofs.Datum.Json
import TypedCalc.Proofs.HistoryFile.RoundTrip
import TypedCalc.Proofs.Token.Spelling
import TypedCalc.Proofs.Expr.RoundTrip
import TypedCalc.Proofs.Evaluation.Recall
import TypedCalc.Proofs.Session
import TypedCalc.Proofs.CommandLine.Options
import TypedCalc.Proofs.Datum.Lines
import TypedCalc.Proofs.Host.Machine
import TypedCalc.Proofs.Limits
import TypedCalc.Proofs.CommandLine.Run
import TypedCalc.Proofs.CommandLine.Sequence
import TypedCalc.Proofs.CommandLine.Ready
import TypedCalc.Proofs.Expr.Lookahead
import TypedCalc.Proofs.Expr.Viable
import TypedCalc.Proofs.Token.Partition
import TypedCalc.Proofs.Operand.Temperature
import TypedCalc.Proofs.Registry.Temperature
import TypedCalc.Proofs.Temperature
import TypedCalc.Proofs.Rendering
import TypedCalc.Proofs.Operand.Refusal
import TypedCalc.Proofs.Binary64.Nearest
import TypedCalc.Proofs.Binary64.HalfAway
import TypedCalc.Proofs.Value.Convert
import TypedCalc.Proofs.Operand.Coercion
import TypedCalc.Proofs.Expr.Nesting
import TypedCalc.Proofs.Expr.Stairs
import TypedCalc.Proofs.Evaluation.Nesting
import TypedCalc.Proofs.Binary64.Exact
import TypedCalc.Proofs.Value.RoundTrip
import TypedCalc.Proofs.Token.Literal
import TypedCalc.Proofs.Value.Quotient
import TypedCalc.Proofs.Token.Shift
import TypedCalc.Proofs.Token.Compose
import TypedCalc.Proofs.Expr.Openers
import TypedCalc.Proofs.Expr.NestingLimit
import TypedCalc.Proofs.Expr.Unclosed
import TypedCalc.Proofs.Operand.Modular
import TypedCalc.Proofs.Operand.Division
import TypedCalc.Proofs.Operand.Shifting
import TypedCalc.Proofs.Value.IntegerCast
import TypedCalc.Proofs.Value.Saturation
import TypedCalc.Proofs.Registry.Power
import TypedCalc.Proofs.Binary64.Power
import TypedCalc.Proofs.Expr.Progress
import TypedCalc.Proofs.SettingsFile
