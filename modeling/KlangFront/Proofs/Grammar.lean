import KlangFront.Lexical.Scan

/-!
# The grammar of source texts

How lexemes and trivia are written, said without the readers. `Piece.WellFormed`
is the grammar of single pieces. `Piece.EndsBefore` says where a piece may end:
the next character, and nothing behind it, decides. `Stop.Breaks` lists the ways
in which a text breaks off, with what was passed of the broken piece and what
comes then.
-/

namespace KlangFront

namespace Grammar

/-- `d+` over the digits of ASCII. -/
def Digits (text : List Char) : Prop := text ≠ [] ∧ ∀ c ∈ text, c.isDigit = true

/-- `(mark d+)?` -/
def DigitGroup (mark : Char) (text : List Char) : Prop :=
  text = [] ∨ ∃ digits, Digits digits ∧ text = mark :: digits

/-- `d+(.d+)?(_d+)?` -/
def Number (text : List Char) : Prop :=
  ∃ whole fraction last, Digits whole ∧ DigitGroup '.' fraction ∧ DigitGroup '_' last ∧
    text = whole ++ fraction ++ last

/-- An alphabetic character or an underscore, then word characters. -/
def Word (text : List Char) : Prop :=
  ∃ c rest, text = c :: rest ∧ isWordStart c = true ∧ ∀ d ∈ rest, isWordPart d = true

/-- A word that is not reserved, or a word behind a sigil. -/
def Name (text : List Char) : Prop :=
  (Word text ∨ ∃ word, Word word ∧ text = '$' :: word) ∧
    ∀ reserved : Keyword, text ≠ reserved.spelling.toList

/-- One ordinary character, or a backslash with a letter that it may stand before. -/
inductive LiteralUnit (quoted : Quoted) : List Char → Prop
  | plain {c : Char} (notQuote : c ≠ quoted.quote) (notSlash : c ≠ '\\') (sameLine : c ≠ '\n') :
      LiteralUnit quoted [c]
  | escape {c : Char} (legal : c ∈ ['n', 't', quoted.quote, '\\']) : LiteralUnit quoted ['\\', c]

inductive LiteralUnits (quoted : Quoted) : List Char → Prop
  | nil : LiteralUnits quoted []
  | cons {unit rest : List Char} :
      LiteralUnit quoted unit → LiteralUnits quoted rest → LiteralUnits quoted (unit ++ rest)

/-- What may stand between the quotes: any number of units in a string, one in a character. -/
def LiteralBody : Quoted → List Char → Prop
  | .string => LiteralUnits .string
  | .character => LiteralUnit .character

/-- A text whose only `*/` is its end. -/
def BlockBody (text : List Char) : Prop :=
  ∃ inner, text = inner ++ ['*', '/'] ∧ ¬ ['*', '/'] <:+: inner

/-- The longest front part of a text among those that a grammar allows. -/
structure Longest (allowed : List Char → Prop) (part text : List Char) : Prop where
  allows : allowed part
  front : part <+: text
  longest : ∀ {other : List Char}, allowed other → other <+: text → other.length ≤ part.length

inductive Trivia : List Char → Prop
  | whiteSpace {c : Char} : isWhiteSpace c = true → Trivia [c]
  | lineComment {body : List Char} : '\n' ∉ body → Trivia ('/' :: '/' :: body)
  | blockComment {body : List Char} : BlockBody body → Trivia ('/' :: '*' :: body)

end Grammar

-- ---------------------------------------------------------------------------
-- Pieces
-- ---------------------------------------------------------------------------

def Lexeme.WellFormed : Lexeme → Prop
  | identifier name => Grammar.Name name
  | number digits => Grammar.Number digits
  | literal quoted body => Grammar.LiteralBody quoted body
  | keyword _ | symbol _ => True

def Piece.WellFormed : Piece → Prop
  | trivia text => Grammar.Trivia text
  | lexeme unit => unit.WellFormed

/-- Whether a lexeme is over when this character comes next. -/
def Lexeme.EndsAt : Lexeme → Char → Prop
  | identifier _, c | keyword _, c => isWordPart c = false
  | number digits, c =>
    c.isDigit = false ∧ isAlphabetic c = false ∧
      (c = '.' → '.' ∈ digits ∨ '_' ∈ digits) ∧ (c = '_' → '_' ∈ digits)
  | literal _ _, _ => True
  | symbol sign, c =>
    (∀ longer : Symbol, longer.spelling ≠ sign.spelling ++ [c]) ∧
      (sign = .division → c ≠ '/' ∧ c ≠ '*')

/-- Whether a piece is over when this character comes next. -/
def Piece.EndsAt : Piece → Char → Prop
  | trivia text, c => ['/', '/'] <+: text → c = '\n'
  | lexeme unit, c => unit.EndsAt c

def Piece.EndsBefore (piece : Piece) (rest : List Char) : Prop :=
  ∀ c ∈ rest.head?, piece.EndsAt c

/-- No piece that the grammar allows at the front of `piece.text ++ rest` is longer. -/
def Piece.LongestBefore (piece : Piece) (rest : List Char) : Prop :=
  ∀ other : Piece, other.WellFormed → other.text <+: piece.text ++ rest →
    other.text.length ≤ piece.text.length

-- ---------------------------------------------------------------------------
-- Broken pieces
-- ---------------------------------------------------------------------------

namespace Grammar

/-- What a literal may hold when it breaks off before its next unit. -/
def Opened : Quoted → List Char → Prop
  | .string => LiteralUnits .string
  | .character => (· = [])

/-- Nothing, or the backslash of an escape that was begun. -/
def Slash (text : List Char) : Prop := text = [] ∨ text = ['\\']

end Grammar

open Grammar in
/-- A piece breaks off: the characters passed of it stand before the offending text. -/
inductive Stop.Breaks : Stop → List Char → Prop
  | strayCharacter {c : Char} {rest : List Char} : isWhiteSpace c = false →
      isWordStart c = false → c.isDigit = false → c ∉ ['"', '\'', '$', '&', '|'] →
      Symbol.ofChar? c = none → Breaks ⟨.strayCharacter c, []⟩ (c :: rest)
  | danglingSigil {rest : List Char} : (∀ c ∈ rest.head?, isWordStart c = false) →
      Breaks ⟨.danglingSigil, []⟩ ('$' :: rest)
  | loneAmpersand {rest : List Char} : rest.head? ≠ some '&' →
      Breaks ⟨.loneAmpersand, []⟩ ('&' :: rest)
  | loneBar {rest : List Char} : rest.head? ≠ some '|' → Breaks ⟨.loneBar, []⟩ ('|' :: rest)
  | openComment {body : List Char} : ¬ ['*', '/'] <:+: body →
      Breaks ⟨.openComment, '/' :: '*' :: body⟩ []
  | lineBreak {quoted : Quoted} {body slash rest : List Char} : Opened quoted body →
      Slash slash → Breaks ⟨.lineBreak quoted, quoted.quote :: body ++ slash⟩ ('\n' :: rest)
  | badEscape {quoted : Quoted} {body rest : List Char} {c : Char} : Opened quoted body →
      c ≠ '\n' → c ∉ ['n', 't', quoted.quote, '\\'] →
      Breaks ⟨.badEscape quoted c, quoted.quote :: body ++ ['\\']⟩ (c :: rest)
  | unterminated {quoted : Quoted} {body slash : List Char} : Opened quoted body →
      Slash slash → Breaks ⟨.unterminated quoted, quoted.quote :: body ++ slash⟩ []
  | emptyCharacter {rest : List Char} : Breaks ⟨.emptyCharacter, ['\'']⟩ ('\'' :: rest)
  | unclosedCharacter {unit rest : List Char} : LiteralUnit .character unit →
      (∀ c ∈ rest.head?, c = '\n') → Breaks ⟨.unterminated .character, '\'' :: unit⟩ rest
  | crowdedCharacter {unit rest : List Char} {c : Char} : LiteralUnit .character unit →
      c ≠ '\'' → c ≠ '\n' → Breaks ⟨.crowdedCharacter, '\'' :: unit⟩ (c :: rest)
  | missingFraction {whole rest : List Char} : Digits whole →
      (∀ c ∈ rest.head?, c.isDigit = false) → Breaks ⟨.missingFraction, whole⟩ ('.' :: rest)
  | missingGroup {whole fraction rest : List Char} : Digits whole → DigitGroup '.' fraction →
      (∀ c ∈ rest.head?, c.isDigit = false) →
      Breaks ⟨.missingGroup, whole ++ fraction⟩ ('_' :: rest)
  | wordAfterNumber {number rest : List Char} {c : Char} : Number number →
      isAlphabetic c = true → Breaks ⟨.wordAfterNumber, number⟩ (c :: rest)

end KlangFront
