import LispDoc.Checks
import LispDoc.CommandLine
import LispDoc.Datum.Basic
import LispDoc.Datum.Encode
import LispDoc.Datum.Json
import LispDoc.Datum.Yaml
import LispDoc.Definition
import LispDoc.Description
import LispDoc.Diagnostic
import LispDoc.Docstring.Block
import LispDoc.Docstring.Inline
import LispDoc.Docstring.Line
import LispDoc.Docstring.Markup
import LispDoc.Docstring.Outline
import LispDoc.Docstring.Parser
import LispDoc.Docstring.Segment
import LispDoc.Environment
import LispDoc.Files
import LispDoc.InfoTarget
import LispDoc.Interpreter
import LispDoc.Json.Basic
import LispDoc.Json.Printer
import LispDoc.Json.Reader
import LispDoc.Keywords
import LispDoc.Main
import LispDoc.Notice
import LispDoc.Number.Binary64
import LispDoc.Number.Digits
import LispDoc.Number.Power
import LispDoc.Number.Shortest
import LispDoc.Proofs.Description.Signature
import LispDoc.Proofs.Docstring.Bounds
import LispDoc.Proofs.Docstring.Composition
import LispDoc.Proofs.Docstring.Coverage
import LispDoc.Proofs.Docstring.Cursor
import LispDoc.Proofs.Docstring.Gap
import LispDoc.Proofs.Docstring.Indentation
import LispDoc.Proofs.Docstring.Intruders
import LispDoc.Proofs.Docstring.Lines
import LispDoc.Proofs.Docstring.OffSide
import LispDoc.Proofs.Docstring.Offsets
import LispDoc.Proofs.Docstring.Outline
import LispDoc.Proofs.Docstring.Quoting
import LispDoc.Proofs.Docstring.Region
import LispDoc.Proofs.Docstring.Relocation
import LispDoc.Proofs.Docstring.Shape
import LispDoc.Proofs.Docstring.Spacing
import LispDoc.Proofs.Docstring.TabStops
import LispDoc.Proofs.Docstring.Warnings
import LispDoc.Proofs.Evaluation.Answer
import LispDoc.Proofs.Evaluation.Contexts
import LispDoc.Proofs.Evaluation.Declaration
import LispDoc.Proofs.Evaluation.Effects
import LispDoc.Proofs.Evaluation.Failure
import LispDoc.Proofs.Evaluation.Footprint
import LispDoc.Proofs.Evaluation.LastWriter
import LispDoc.Proofs.Evaluation.LoadOrder
import LispDoc.Proofs.Evaluation.Program
import LispDoc.Proofs.Evaluation.References
import LispDoc.Proofs.Evaluation.Replay
import LispDoc.Proofs.Evaluation.Require
import LispDoc.Proofs.Evaluation.Reuse
import LispDoc.Proofs.Evaluation.Saving
import LispDoc.Proofs.Evaluation.Session
import LispDoc.Proofs.Evaluation.Splicing
import LispDoc.Proofs.Evaluation.Structures
import LispDoc.Proofs.Evaluation.Variables
import LispDoc.Proofs.Evaluation.Write
import LispDoc.Proofs.Files
import LispDoc.Proofs.InfoTarget
import LispDoc.Proofs.Json.Float
import LispDoc.Proofs.Json.Literal
import LispDoc.Proofs.Json.RoundTrip
import LispDoc.Proofs.Markup.Braces
import LispDoc.Proofs.Markup.Citations
import LispDoc.Proofs.Markup.Leftmost
import LispDoc.Proofs.Markup.Lossless
import LispDoc.Proofs.Markup.MetaVariables
import LispDoc.Proofs.Markup.Patterns
import LispDoc.Proofs.Number.Digits
import LispDoc.Proofs.Number.Rounding
import LispDoc.Proofs.Sexp.Boundary
import LispDoc.Proofs.Sexp.Concatenation
import LispDoc.Proofs.Sexp.Equality
import LispDoc.Proofs.Sexp.ErrorLines
import LispDoc.Proofs.Sexp.Grammar
import LispDoc.Proofs.Sexp.Lexing
import LispDoc.Proofs.Sexp.RoundTrip
import LispDoc.Proofs.Sexp.Separators
import LispDoc.Proofs.Sexp.Tiling
import LispDoc.Proofs.Snapshot
import LispDoc.Proofs.Table
import LispDoc.Proofs.Text.Splitting
import LispDoc.Roles
import LispDoc.Settings
import LispDoc.Settings.Key
import LispDoc.Settings.Toml
import LispDoc.Settings.Value
import LispDoc.Sexp.Atom
import LispDoc.Sexp.Basic
import LispDoc.Sexp.FunctionQuote
import LispDoc.Sexp.Printer
import LispDoc.Sexp.Reader
import LispDoc.Sexp.Token
import LispDoc.Snapshot
import LispDoc.Symbol
import LispDoc.Table
import LispDoc.Text.Blank
import LispDoc.Text.CharRange
import LispDoc.Text.LetterCase
import LispDoc.Text.Printable
import LispDoc.Text.Quoted
import LispDoc.Text.Utf8
import LispDoc.Text.Word
