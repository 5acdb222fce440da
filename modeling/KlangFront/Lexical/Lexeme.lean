import KlangFront.Token.Kind

/-!
# Lexemes

A lexeme is a token as it is written, without a place. `Lexeme.text` is its
spelling, and `text_ofWord` says that a word is spelled as it was read, whether it
turns out to be reserved or a name.
-/

namespace KlangFront

inductive Lexeme
  | identifier (name : List Char)
  | number (digits : List Char)
  | literal (quoted : Quoted) (body : List Char)
  | keyword (word : Keyword)
  | symbol (sign : Symbol)
  deriving DecidableEq

namespace Lexeme

/-- The characters that a lexeme is written with, quotes included. -/
def text : Lexeme → List Char
  | identifier name => name
  | number digits => digits
  | literal quoted body => quoted.quote :: body ++ [quoted.quote]
  | keyword word => word.spelling.toList
  | symbol sign => sign.spelling

def kind : Lexeme → TokenKind
  | identifier _ => .identifier
  | number _ => .number
  | literal quoted _ => .literal quoted
  | keyword word => .keyword word
  | symbol sign => .symbol sign

/-- The part of the text that the kind leaves open. -/
def content? : Lexeme → Option (List Char)
  | identifier name => some name
  | number digits => some digits
  | literal _ body => some body
  | keyword _ | symbol _ => none

/-- A word is reserved or a name. -/
def ofWord (word : List Char) : Lexeme :=
  match Keyword.ofSpelling? (String.ofList word) with
  | some reserved => keyword reserved
  | none => identifier word

theorem text_ofWord (word : List Char) : (ofWord word).text = word := by
  unfold ofWord
  cases found : Keyword.ofSpelling? (String.ofList word) with
  | none => rfl
  | some reserved =>
    have spelled := Keyword.ofSpelling?_eq_some_iff.mp found
    simp only [text, spelled, String.toList_ofList]

end Lexeme

end KlangFront
