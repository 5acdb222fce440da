import KlangFront.Diagnostic.Severity
import KlangFront.Source.Span

/-!
# Diagnostics

A diagnostic reports one problem: a severity, a message, the place of the
problem, further places that it refers to, and notes that help to mend it. No
message is empty, which is part of the types: a note or a diagnostic that exists
has something to say.
-/

namespace KlangFront

/-- Which text of a report was empty. -/
inductive TextError
  | emptyMessage
  | emptyNote
  deriving DecidableEq

def TextError.message : TextError → String
  | .emptyMessage => "diagnostic message must not be empty"
  | .emptyNote => "note message must not be empty"

structure Note where
  message : String
  span : Option Span
  message_ne_empty : message ≠ ""
  deriving DecidableEq

/-- A note without a place. -/
def Note.ofMessage (message : String) : Except TextError Note :=
  if empty : message = "" then .error .emptyNote else .ok ⟨message, none, empty⟩

def Note.at (note : Note) (span : Span) : Note := { note with span := some span }

structure Diagnostic where
  severity : Severity
  message : String
  primary : Option Span
  /-- Places that the problem refers to, in the order of the report. -/
  secondary : List Span
  notes : List Note
  message_ne_empty : message ≠ ""
  deriving DecidableEq

namespace Diagnostic

def isFatal (diagnostic : Diagnostic) : Bool := diagnostic.severity.isFatal

def display (diagnostic : Diagnostic) : String :=
  let header := diagnostic.severity.label ++ ": " ++ diagnostic.message
  match diagnostic.primary with
  | some span => header ++ " at " ++ span.display
  | none => header

end Diagnostic

end KlangFront
