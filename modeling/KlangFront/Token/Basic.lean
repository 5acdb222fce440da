import KlangFront.Source.Span
import KlangFront.Token.Kind

/-!
# Tokens

A token has a kind, the text that its kind leaves open, and a place. The text of
a quoted literal stands between the quotes and keeps its escapes as written.
-/

namespace KlangFront

structure Token where
  kind : TokenKind
  lexeme : Option String
  span : Span
  deriving DecidableEq

namespace Token

/-- The lexeme, empty for a kind that has none. -/
def text (token : Token) : String := token.lexeme.getD ""

def display (token : Token) : String :=
  match token.lexeme with
  | some text => token.kind.name ++ "(\"" ++ text ++ "\")"
  | none => token.kind.name

end Token

end KlangFront
