import KlangFront.Diagnostic.Basic

/-!
# Drafts of diagnostics

A draft is a diagnostic in the making, whose message may still turn out to be
empty. Amendments are applied to it in order. A later primary span replaces an
earlier one, while secondary spans and notes add up; a note that is given by its
message alone is refused at once when the message is empty. The message of the
draft is checked last, by `Draft.finish`.
-/

namespace KlangFront

structure Draft where
  severity : Severity
  message : String
  primary : Option Span
  secondary : List Span
  notes : List Note
  deriving DecidableEq

inductive Amendment
  | primary (span : Span)
  | secondary (span : Span)
  | note (note : Note)
  | noteMessage (message : String)
  deriving DecidableEq

namespace Draft

def start (severity : Severity) (message : String) : Draft := ⟨severity, message, none, [], []⟩

def amend (draft : Draft) : Amendment → Except TextError Draft
  | .primary span => .ok { draft with primary := some span }
  | .secondary span => .ok { draft with secondary := draft.secondary ++ [span] }
  | .note note => .ok { draft with notes := draft.notes ++ [note] }
  | .noteMessage message => do
    let note ← Note.ofMessage message
    return { draft with notes := draft.notes ++ [note] }

def finish (draft : Draft) : Except TextError Diagnostic :=
  if empty : draft.message = "" then .error .emptyMessage
  else .ok {
    severity := draft.severity
    message := draft.message
    primary := draft.primary
    secondary := draft.secondary
    notes := draft.notes
    message_ne_empty := empty }

end Draft

/-- The diagnostic made from a message by amendments, applied from the first to the last. -/
def Diagnostic.build (severity : Severity) (message : String) (amendments : List Amendment) :
    Except TextError Diagnostic := do
  let draft ← amendments.foldlM Draft.amend (.start severity message)
  draft.finish

end KlangFront
