import KlangFront.Lexical.Error
import KlangFront.Lexical.Scan
import KlangFront.Source.Position
import KlangFront.Token.Basic

/-!
# Tokens of a source text

The tokens of a text are the lexemes of its scan, each with its place, and one
token for the end of the input. The first fault ends the scan, and then there is
only the error. A place follows from the text of the pieces before it, so the
scan itself knows nothing of lines, columns or files.
-/

namespace KlangFront

/-- The token of a lexeme that starts at a position. A lexeme never leaves its line. -/
def Token.ofLexeme (file : Option String) (start : Position) (unit : Lexeme) : Token where
  kind := unit.kind
  lexeme := unit.content?.map String.ofList
  span := .onLine file start.line start.column (start.after unit.text).lastColumn

def Token.endOfInput (file : Option String) (position : Position) : Token where
  kind := .endOfInput
  lexeme := none
  span := .point file position.line position.column

/-- The tokens of the pieces so far, the latest first, and the position behind these pieces. -/
structure Placement where
  position : Position
  tokens : List Token

namespace Placement

def start : Placement := ⟨.start, []⟩

def add (file : Option String) (placement : Placement) (piece : Piece) : Placement where
  position := placement.position.after piece.text
  tokens :=
    match piece with
    | .trivia _ => placement.tokens
    | .lexeme unit => .ofLexeme file placement.position unit :: placement.tokens

def ofPieces (file : Option String) (pieces : List Piece) : Placement :=
  pieces.foldl (add file) start

end Placement

/-- The tokens of a source text, or its first lexical error. -/
def tokenize (file : Option String) (source : String) : Except LexicalError (List Token) :=
  let scan := Scan.of source.toList
  let placement := Placement.ofPieces file scan.pieces
  match scan.stop with
  | some stop =>
    let offence := placement.position.after stop.passed
    .error ⟨stop.fault, .point file offence.line offence.column⟩
  | none => .ok (placement.tokens.reverse ++ [.endOfInput file placement.position])

/-- The file with a given name; an empty name stands for a text without a file. -/
def fileNamed (name : String) : Option String := if name = "" then none else some name

end KlangFront
