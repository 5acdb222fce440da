/-!
# Severities

How bad a reported problem is. Every severity but a warning and an information
stops the compilation.
-/

namespace KlangFront

inductive Severity
  | lexicalError
  | syntaxError
  | semanticError
  | typeError
  | error
  | warning
  | info
  deriving DecidableEq

namespace Severity

def isFatal : Severity → Bool
  | warning | info => false
  | _ => true

/-- The word that heads a report. -/
def label : Severity → String
  | lexicalError => "LEXICAL"
  | syntaxError => "SYNTAX"
  | semanticError | typeError | error => "ERROR"
  | warning => "WARNING"
  | info => "INFO"

/-- The severity in running text. -/
def display : Severity → String
  | lexicalError => "lexical error"
  | syntaxError => "syntax error"
  | semanticError => "semantic error"
  | typeError => "type error"
  | error => "error"
  | warning => "warning"
  | info => "info"

end Severity

end KlangFront
