import KlangFront.Token.Keyword
import KlangFront.Token.Symbol

/-!
# Kinds of tokens

Identifiers, numbers and the two quoted literals carry a text of their own; a
reserved word and a symbol are fully described by their kind. One kind marks the
end of the input.
-/

namespace KlangFront

/-- The two literals that are written between quotes. -/
inductive Quoted
  | string
  | character
  deriving DecidableEq

def Quoted.quote : Quoted → Char
  | .string => '"'
  | .character => '\''

inductive TokenKind
  | identifier
  | number
  | literal (quoted : Quoted)
  | keyword (word : Keyword)
  | symbol (sign : Symbol)
  | endOfInput
  deriving DecidableEq

namespace TokenKind

/-- Upper-case name in a token listing. -/
def name : TokenKind → String
  | identifier => "IDENTIFIER"
  | number => "NUMBER"
  | literal .string => "STRING_LITERAL"
  | literal .character => "CHARACTER_LITERAL"
  | keyword word => word.name
  | symbol sign => sign.name
  | endOfInput => "EOF"

def hasLexeme : TokenKind → Bool
  | identifier | number | literal _ => true
  | keyword _ | symbol _ | endOfInput => false

def isKeyword : TokenKind → Bool
  | keyword _ => true
  | _ => false

end TokenKind

end KlangFront
