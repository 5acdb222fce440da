import KlangFront.Text.WhiteSpace
import KlangFront.Text.Alphabetic
import KlangFront.Text.Numeric
import KlangFront.Text.Lines
import KlangFront.Source.Position
import KlangFront.Source.Span
import KlangFront.Source.Cursor
import KlangFront.Token.Basic
import KlangFront.Lexical.Comment
import KlangFront.Lexical.Literal
import KlangFront.Lexical.Piece
import KlangFront.Lexical.Scan
import KlangFront.Diagnostic.Draft
import KlangFront.Diagnostic.Batch
import KlangFront.Lexical.Tokens
import KlangFront.Terminal.ColorMode
import KlangFront.Diagnostic.Report
import KlangFront.Token.Listing
import KlangFront.Output.Sink
import KlangFront.Files.Tree
import KlangFront.Command.Program
import KlangFront.Main
import KlangFront.Proofs.Lossless
import KlangFront.Proofs.Printing
import KlangFront.Proofs.TokenSpans
import KlangFront.Proofs.LocatedFaults
import KlangFront.Proofs.Cuts
import KlangFront.Proofs.SkippedComments
import KlangFront.Proofs.LiteralCases
import KlangFront.Proofs.NumberCases
import KlangFront.Proofs.BatchRuns
import KlangFront.Proofs.BrokenPieces
import KlangFront.Proofs.Locality
import KlangFront.Proofs.ErrorReports
import KlangFront.Proofs.LineEnds
import KlangFront.Proofs.EscapeSequences
import KlangFront.Proofs.ReportColors
import KlangFront.Proofs.Outcomes
import KlangFront.Proofs.SpanBounds
import KlangFront.Proofs.Listings
import KlangFront.Proofs.ArgumentLists
import KlangFront.Proofs.LimitedRoom
import KlangFront.Proofs.HiddenLocations
import KlangFront.Proofs.FaultTexts
import KlangFront.Proofs.DraftSteps
import KlangFront.Proofs.FileNames
import KlangFront.Proofs.Cursors
import KlangFront.Proofs.Progress
import KlangFront.Proofs.ReservedWords
