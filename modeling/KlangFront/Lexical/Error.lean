import KlangFront.Diagnostic.Draft
import KlangFront.Lexical.Fault

/-!
# Lexical errors

A lexical error is a fault with its place. It is reported as one fatal diagnostic
with the remedy of the fault as its only note. `build_toDiagnostic` says that this
is what amending a draft with the place and the remedy gives, and that neither
text is refused.
-/

namespace KlangFront

structure LexicalError where
  fault : Fault
  /-- The offending character, or the end of the text. -/
  span : Span
  deriving DecidableEq

def Fault.remedyNote (fault : Fault) : Note := ⟨fault.remedy, none, fault.remedy_ne_empty⟩

def LexicalError.toDiagnostic (error : LexicalError) : Diagnostic where
  severity := .lexicalError
  message := error.fault.message
  primary := some error.span
  secondary := []
  notes := [error.fault.remedyNote]
  message_ne_empty := error.fault.message_ne_empty

theorem LexicalError.build_toDiagnostic (error : LexicalError) :
    Diagnostic.build .lexicalError error.fault.message
      [.primary error.span, .noteMessage error.fault.remedy] = .ok error.toDiagnostic := by
  simp only [Diagnostic.build, List.foldlM_cons, List.foldlM_nil, Draft.amend, Note.ofMessage,
    error.fault.remedy_ne_empty, dite_false, Draft.finish]
  simp [bind, Except.bind, pure, Except.pure, Draft.start, error.fault.message_ne_empty,
    LexicalError.toDiagnostic, Fault.remedyNote]

end KlangFront
