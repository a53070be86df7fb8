import TemplateEngine.Artifact.Cache
import TemplateEngine.Artifact.Decode
import TemplateEngine.Artifact.Encode
import TemplateEngine.Artifact.Format
import TemplateEngine.CommandLine.Command
import TemplateEngine.CommandLine.Options
import TemplateEngine.CommandLine.Run
import TemplateEngine.Encoding.Basic
import TemplateEngine.Encoding.Charset
import TemplateEngine.Encoding.SingleByte
import TemplateEngine.Encoding.Unicode
import TemplateEngine.Files.Error
import TemplateEngine.Files.Tree
import TemplateEngine.Json.Basic
import TemplateEngine.Json.Number
import TemplateEngine.Json.Reader
import TemplateEngine.Json.Writer
import TemplateEngine.Main
import TemplateEngine.Number.Decimal
import TemplateEngine.Number.Word
import TemplateEngine.Proofs.Syntax.Lexemes
import TemplateEngine.Proofs.Syntax.Lines
import TemplateEngine.Proofs.Syntax.Rounds
import TemplateEngine.Proofs.Syntax.Statements
import TemplateEngine.Proofs.Syntax.Strings
import TemplateEngine.Proofs.Template.Compilation
import TemplateEngine.Proofs.Template.Outline
import TemplateEngine.Proofs.Template.Fragments
import TemplateEngine.Proofs.Template.Layout
import TemplateEngine.Proofs.Template.Lines
import TemplateEngine.Proofs.Template.Program
import TemplateEngine.Proofs.Template.Reading
import TemplateEngine.Proofs.Template.Rows
import TemplateEngine.Proofs.Template.Splitting
import TemplateEngine.Proofs.Template.Translation
import TemplateEngine.Proofs.Text.Identifier
import TemplateEngine.Proofs.Text.Replacement
import TemplateEngine.Render.Compiler
import TemplateEngine.Render.Page
import TemplateEngine.Render.Renderer
import TemplateEngine.Script.Arguments
import TemplateEngine.Script.Builtin
import TemplateEngine.Script.Cause
import TemplateEngine.Script.Evaluation.Basic
import TemplateEngine.Script.Evaluation.Call
import TemplateEngine.Script.Evaluation.Expression
import TemplateEngine.Script.Evaluation.Statement
import TemplateEngine.Script.Exception
import TemplateEngine.Script.Format
import TemplateEngine.Script.Heap
import TemplateEngine.Script.Method
import TemplateEngine.Script.OfJson
import TemplateEngine.Script.Operator
import TemplateEngine.Script.Printed
import TemplateEngine.Script.Relation
import TemplateEngine.Script.Scope
import TemplateEngine.Script.Subscript
import TemplateEngine.Script.Value
import TemplateEngine.Settings.Basic
import TemplateEngine.Settings.Location
import TemplateEngine.Syntax.Lexer
import TemplateEngine.Syntax.Literal
import TemplateEngine.Syntax.Parser.Basic
import TemplateEngine.Syntax.Parser.Expression
import TemplateEngine.Syntax.Parser.Statement
import TemplateEngine.Syntax.Token
import TemplateEngine.Syntax.Tree
import TemplateEngine.Template.Fault
import TemplateEngine.Template.Fragment
import TemplateEngine.Template.Generated
import TemplateEngine.Template.Program
import TemplateEngine.Template.Segment
import TemplateEngine.Template.Source
import TemplateEngine.Text.Basic
import TemplateEngine.Text.Blank
import TemplateEngine.Text.Entity
import TemplateEngine.Text.Entries
import TemplateEngine.Text.Letter.Alphabetic
import TemplateEngine.Text.Letter.Case
import TemplateEngine.Text.Letter.CaseTable
import TemplateEngine.Text.Letter.Cased
import TemplateEngine.Text.Letter.Identifier
import TemplateEngine.Text.Letter.Ranges
import TemplateEngine.Text.Quoted
import TemplateEngine.Toml.Basic
import TemplateEngine.Toml.Reader
import TemplateEngine.Toml.Scalar
import TemplateEngine.Toml.Writer
import TemplateEngine.Proofs.Render.Escaping
import TemplateEngine.Proofs.Render.Verbatim
import TemplateEngine.Proofs.Artifact.Expressions
import TemplateEngine.Proofs.Artifact.RoundTrip
import TemplateEngine.Proofs.Artifact.Transparency
import TemplateEngine.Proofs.Render.Isolation
import TemplateEngine.Proofs.Render.Loading
import TemplateEngine.Proofs.Syntax.ExpressionReading
import TemplateEngine.Proofs.Syntax.ExpressionRoundTrip
import TemplateEngine.Proofs.Syntax.ProgramText
import TemplateEngine.Proofs.Syntax.StatementReading
import TemplateEngine.Proofs.Syntax.BlockReading
import TemplateEngine.Proofs.Syntax.ProgramReading
import TemplateEngine.Proofs.Script.Captures
import TemplateEngine.Proofs.Render.FailureLines
import TemplateEngine.Proofs.Render.Layouts
import TemplateEngine.Proofs.Render.Partials
import TemplateEngine.Proofs.Artifact.Containment
import TemplateEngine.Proofs.Render.CurrentFiles
import TemplateEngine.Proofs.Script.Data
import TemplateEngine.Proofs.Script.DataReading
import TemplateEngine.Proofs.Script.AugmentedAssignment
import TemplateEngine.Proofs.Render.FailedLayouts
import TemplateEngine.Proofs.Template.Reassembly
import TemplateEngine.Proofs.Render.CommentTag
import TemplateEngine.Proofs.Template.Pieces
import TemplateEngine.Proofs.Syntax.Depth
import TemplateEngine.Proofs.Template.PrintTag
import TemplateEngine.Proofs.Syntax.TokenLayout
import TemplateEngine.Proofs.Template.LineMap
import TemplateEngine.Proofs.Template.Balance
import TemplateEngine.Proofs.Script.Jumps
import TemplateEngine.Proofs.Script.Equality
import TemplateEngine.Proofs.Script.Ordering
import TemplateEngine.Proofs.Script.SortedLists
import TemplateEngine.Proofs.Number.Words
import TemplateEngine.Proofs.Script.Arithmetic
import TemplateEngine.Proofs.Script.IntegerResults
import TemplateEngine.Proofs.Script.Subscripts
import TemplateEngine.Proofs.Script.Partitions
import TemplateEngine.Proofs.Script.Ranges
import TemplateEngine.Proofs.Script.PercentFormats
import TemplateEngine.Proofs.Script.HandlerStack
import TemplateEngine.Proofs.Script.Reraising
import TemplateEngine.Proofs.Script.InPlace
import TemplateEngine.Proofs.Script.Mutations
import TemplateEngine.Proofs.Script.BlockFootprints
import TemplateEngine.Proofs.Render.LayoutScopes
import TemplateEngine.Proofs.Text.Entities
import TemplateEngine.Proofs.Syntax.TokenSpans
