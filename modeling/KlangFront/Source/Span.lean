import KlangFront.Source.Coord

/-!
# Spans of source text

A span covers the characters from a start to an end, both included, in a named
file or in an anonymous text. Its ends are in order: that is part of the type,
so a span that exists is well formed. `Span.ofBounds` checks four plain words
and names the first condition that they break.
-/

namespace KlangFront

structure Span where
  file : Option String
  startLine : Coord
  startColumn : Coord
  endLine : Coord
  endColumn : Coord
  lines_ordered : startLine ≤ endLine
  columns_ordered : startLine = endLine → startColumn ≤ endColumn
  deriving DecidableEq

/-- The first condition broken by the bounds of a span. -/
inductive SpanError
  | zeroStartLine
  | zeroStartColumn
  | zeroEndColumn
  | linesReversed (start finish : UInt32)
  | columnsReversed (start finish : UInt32)
  deriving DecidableEq

def SpanError.message : SpanError → String
  | .zeroStartLine => "start line must be >= 1"
  | .zeroStartColumn => "start column must be >= 1"
  | .zeroEndColumn => "end column must be >= 1"
  | .linesReversed start finish =>
    "end line " ++ finish.toNat.repr ++ " is before start line " ++ start.toNat.repr
  | .columnsReversed start finish =>
    "end column " ++ finish.toNat.repr ++ " is before start column " ++ start.toNat.repr
      ++ " on the same line"

namespace Span

/-- The span with the given bounds, a start line and column and an end line and column. -/
def ofBounds (file : Option String) (startLine startColumn endLine endColumn : UInt32) :
    Except SpanError Span :=
  if startLinePositive : 0 < startLine then
    if startColumnPositive : 0 < startColumn then
      if endColumnPositive : 0 < endColumn then
        if lines : startLine ≤ endLine then
          if columns : startLine = endLine → startColumn ≤ endColumn then
            .ok {
              file
              startLine := ⟨startLine, startLinePositive⟩
              startColumn := ⟨startColumn, startColumnPositive⟩
              endLine := ⟨endLine, UInt32.lt_of_lt_of_le startLinePositive lines⟩
              endColumn := ⟨endColumn, endColumnPositive⟩
              lines_ordered := lines
              columns_ordered := fun same => columns (congrArg Coord.word same) }
          else .error (.columnsReversed startColumn endColumn)
        else .error (.linesReversed startLine endLine)
      else .error .zeroEndColumn
    else .error .zeroStartColumn
  else .error .zeroStartLine

/-- The part of one line between two columns; an end before the start gives a single character. -/
def onLine (file : Option String) (line startColumn endColumn : Coord) : Span where
  file
  startLine := line
  startColumn
  endLine := line
  endColumn := startColumn.max endColumn
  lines_ordered := Coord.le_iff_toNat_le.mpr (Nat.le_refl _)
  columns_ordered := fun _ => Coord.le_max_left _ _

/-- A single character. -/
def point (file : Option String) (line column : Coord) : Span :=
  onLine file line column column

/-- The same place in another source. -/
def withFile (span : Span) (file : Option String) : Span := { span with file }

def isSingleLine (span : Span) : Bool := span.startLine = span.endLine

/-- Width in columns, which only a span on one line has. -/
def length? (span : Span) : Option UInt32 :=
  if span.isSingleLine then some (span.endColumn.word - span.startColumn.word + 1) else none

/-- The place as it is printed: a span on one line by its start, a longer one by both ends. -/
def display (span : Span) : String :=
  match span.file, span.isSingleLine with
  | some file, true => file ++ ":" ++ span.startLine.text ++ ":" ++ span.startColumn.text
  | some file, false =>
    file ++ ":" ++ span.startLine.text ++ ":" ++ span.startColumn.text
      ++ "-" ++ span.endLine.text ++ ":" ++ span.endColumn.text
  | none, true => "line " ++ span.startLine.text ++ ", col " ++ span.startColumn.text
  | none, false =>
    "line " ++ span.startLine.text ++ ", col " ++ span.startColumn.text
      ++ " to line " ++ span.endLine.text ++ ", col " ++ span.endColumn.text

end Span

end KlangFront
