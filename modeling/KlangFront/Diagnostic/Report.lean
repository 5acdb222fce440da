import KlangFront.Diagnostic.Basic
import KlangFront.Terminal.Style
import KlangFront.Text.Lines

/-!
# Reports

A report is a diagnostic laid out for a terminal: a header, the place of the
problem with the source line it is on and marks below that line, the places that
it refers to, and the notes.

```text
LEXICAL: unexpected character '#'
  --> src/main.k:3:9
 3 | integer x = 4#;
                 ^
  > note: remove this character
```

The layout is a list of rows of styled runs, so color is a matter of painting the
runs and never of the layout. Source text comes from a reader in any monad. It is
asked once for every place that is shown and has a file, in the order of the
report, and a reader that has no text, or too few lines, only costs the source
line and its marks.
-/

namespace KlangFront

structure ReportOptions where
  color : Bool
  /-- Whether the places of the problem and of its notes are shown. -/
  locations : Bool
  deriving DecidableEq

def ReportOptions.plain : ReportOptions := ⟨false, true⟩

abbrev Row := List Run

def Row.paint (color : Bool) (row : Row) : String := String.join (row.map (Run.paint color))

/-- The style of a header and of the marks below its source line. -/
def Severity.style : Severity → Style
  | .warning => .warning
  | .info => .info
  | _ => .error

namespace Report

/-- Numbers a source line. -/
def gutter (line : Coord) : String := " " ++ line.text ++ " | "

/-- How many characters are marked: those of a span on one line, the first one of a longer span. -/
def markWidth (span : Span) : Nat := (span.length?.getD 1).toNat

/-- A source line with marks below the characters of a span. -/
def excerpt (span : Span) (style : Style) (line : List Char) : List Row :=
  let margin := gutter span.startLine
  let offset := margin.length + span.startColumn.toNat - 1
  [[⟨margin, [.muted]⟩, ⟨String.ofList line, []⟩],
   [⟨String.ofList (List.replicate offset ' '), []⟩,
    ⟨String.ofList (List.replicate (markWidth span) '^'), [style]⟩]]

def header (diagnostic : Diagnostic) : Row :=
  [⟨diagnostic.severity.label, [.bold, diagnostic.severity.style]⟩,
   ⟨": " ++ diagnostic.message, []⟩]

def reference (span : Span) : Row :=
  [⟨"  ", []⟩, ⟨":::", [.muted]⟩, ⟨" referenced at " ++ span.display, []⟩]

def noteLine (note : Note) : Row :=
  [⟨"  > ", []⟩, ⟨"note:", [.bold, .info]⟩, ⟨" " ++ note.message, []⟩]

def arrow (indent : String) (span : Span) : Row :=
  [⟨indent, []⟩, ⟨"-->", [.muted]⟩, ⟨" " ++ span.display, []⟩]

variable {m : Type → Type} [Monad m] (read : String → m (Option String))

/-- The source line of a span with its marks, empty where the line cannot be had. -/
def context (span : Span) (style : Style) : m (List Row) :=
  match span.file with
  | none => pure []
  | some file => do
    let source ← read file
    return match source.bind fun text => Text.line? text.toList span.startLine.toNat with
      | some line => excerpt span style line
      | none => []

/-- A place that is shown, with its source line. -/
def location (indent : String) (style : Style) (span : Span) : m (List Row) := do
  let source ← context read span style
  return arrow indent span :: source

/-- The place of a problem or of a note, if there is one and it is to be shown. -/
def location? (locations : Bool) (indent : String) (style : Style) (span : Option Span) :
    m (List Row) :=
  match span with
  | some span => if locations then location read indent style span else pure []
  | none => pure []

def note (locations : Bool) (note : Note) : m (List Row) := do
  let place ← location? read locations "    " .info note.span
  return noteLine note :: place

def rows (locations : Bool) (diagnostic : Diagnostic) : m (List Row) := do
  let primary ← location? read locations "  " diagnostic.severity.style diagnostic.primary
  let notes ← diagnostic.notes.mapM (note read locations)
  return header diagnostic :: primary ++ diagnostic.secondary.map reference ++ notes.flatten

/-- Rows as text; each row, the last one too, ends in a line feed. -/
def text (color : Bool) (rows : List Row) : String :=
  String.join (rows.map fun row => row.paint color ++ "\n")

/-- A reader of known texts that keeps the names that it was asked for, in order. -/
def recording (texts : String → Option String) (file : String) :
    StateM (List String) (Option String) := do
  modify (· ++ [file])
  return texts file

end Report

/-- The report of a diagnostic as text. -/
def Diagnostic.report {m : Type → Type} [Monad m] (read : String → m (Option String))
    (options : ReportOptions) (diagnostic : Diagnostic) : m String := do
  let rows ← Report.rows read options.locations diagnostic
  return Report.text options.color rows

/-- The report of a diagnostic over known texts, and the files that it asks for. -/
def Diagnostic.recordedReport (texts : String → Option String) (options : ReportOptions)
    (diagnostic : Diagnostic) : String × List String :=
  (diagnostic.report (Report.recording texts) options).run []

end KlangFront
