import Stencil.Document.Body
import Stencil.Document.Reader
import Stencil.Expr.Lexeme
import Stencil.Expr.Reader
import Stencil.FunctionRegistry
import Stencil.Location
import Stencil.NameMap
import Stencil.Node.Basic
import Stencil.Node.Children
import Stencil.Node.Height
import Stencil.Node.Source
import Stencil.Node.Subtrees
import Stencil.Node.Transform
import Stencil.Node.Unlocated
import Stencil.Number.Basic
import Stencil.Number.Double
import Stencil.Number.Shortest
import Stencil.Proofs.Bytes.Cutting
import Stencil.Proofs.Bytes.Document
import Stencil.Proofs.Bytes.Encoding
import Stencil.Proofs.Bytes.Expression
import Stencil.Proofs.Bytes.Lexing
import Stencil.Proofs.Bytes.Scanning
import Stencil.Proofs.Document.Calls
import Stencil.Proofs.Document.Composition
import Stencil.Proofs.Document.ErrorLines
import Stencil.Proofs.Document.Errors
import Stencil.Proofs.Document.Grammar
import Stencil.Proofs.Document.Language
import Stencil.Proofs.Document.LineEndings
import Stencil.Proofs.Document.Lines
import Stencil.Proofs.Document.Moved
import Stencil.Proofs.Document.Outcomes
import Stencil.Proofs.Document.Places
import Stencil.Proofs.Document.Reading
import Stencil.Proofs.Document.Rejection
import Stencil.Proofs.Document.Shape
import Stencil.Proofs.Document.Stops
import Stencil.Proofs.Escaping.Frame
import Stencil.Proofs.Escaping.Html
import Stencil.Proofs.Escaping.Mirror
import Stencil.Proofs.Escaping.Reversal
import Stencil.Proofs.Expr.Closing
import Stencil.Proofs.Expr.Faults
import Stencil.Proofs.Expr.Grammar
import Stencil.Proofs.Expr.Inclusion
import Stencil.Proofs.Expr.Language
import Stencil.Proofs.Expr.Lexemes
import Stencil.Proofs.Expr.Literals
import Stencil.Proofs.Expr.Path
import Stencil.Proofs.Expr.Places
import Stencil.Proofs.Expr.Reading
import Stencil.Proofs.Expr.Scanning
import Stencil.Proofs.Expr.Steps
import Stencil.Proofs.Node.Children
import Stencil.Proofs.Node.Rebuilding
import Stencil.Proofs.Printing.Body
import Stencil.Proofs.Printing.Directive
import Stencil.Proofs.Printing.Document
import Stencil.Proofs.Printing.Escaping
import Stencil.Proofs.Printing.Expression
import Stencil.Proofs.Printing.Literal
import Stencil.Proofs.Printing.RoundTrip
import Stencil.Proofs.Run.Causes
import Stencil.Proofs.Run.Extension
import Stencil.Proofs.Run.Flat
import Stencil.Proofs.Run.Growth
import Stencil.Proofs.Run.Locations
import Stencil.Proofs.Run.Nesting
import Stencil.Proofs.Run.Sorts
import Stencil.Proofs.Run.Steps
import Stencil.Proofs.Run.Trace
import Stencil.Proofs.Run.Unmentioned
import Stencil.Proofs.Run.Writes
import Stencil.Proofs.Segment.Cutting
import Stencil.Proofs.Segment.Directive
import Stencil.Proofs.Segment.Dissection
import Stencil.Proofs.Segment.Exactness
import Stencil.Proofs.Segment.Seam
import Stencil.Render
import Stencil.Run.Error
import Stencil.Run.Evaluate
import Stencil.Run.Execute
import Stencil.Run.Sink
import Stencil.Segment.Basic
import Stencil.Segment.Heading
import Stencil.Segment.Splitter
import Stencil.SourceError
import Stencil.TemplateSet.Basic
import Stencil.TemplateSet.Escaping
import Stencil.TemplateSet.Unlocated
import Stencil.Text.Blank
import Stencil.Text.Html
import Stencil.Text.Literal
import Stencil.Text.Newline
import Stencil.Text.Printable
import Stencil.Text.Quoted
import Stencil.Value.Basic
import Stencil.Value.Json
import Stencil.Proofs.Node.Tour
