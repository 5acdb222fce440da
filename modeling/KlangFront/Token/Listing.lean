import KlangFront.Token.Basic

/-!
# Token listings

A listing has a title line with the path and the number of tokens, and then one
line for each token with the place where it starts.
-/

namespace KlangFront.Listing

def title (path : String) (tokens : List Token) : String :=
  "Tokens for '" ++ path ++ "' (" ++ tokens.length.repr ++ " tokens):\n"

def line (token : Token) : String :=
  "  " ++ token.display ++ " @ " ++ token.span.startLine.text ++ ":"
    ++ token.span.startColumn.text ++ "\n"

/-- The lines of a listing in the order in which they are written. -/
def lines (path : String) (tokens : List Token) : List String :=
  title path tokens :: tokens.map line

def text (path : String) (tokens : List Token) : String := String.join (lines path tokens)

end KlangFront.Listing
