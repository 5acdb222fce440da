/-!
# Operators and delimiters

Each symbol is written with one or two characters. `Symbol.ofPair?` and
`Symbol.ofChar?` read the two lengths, and `ofPair?_eq_some_iff` and
`ofChar?_eq_some_iff` say that they invert `Symbol.spelling`. Two ampersands and
two bars are symbols, one alone is none.
-/

namespace KlangFront

inductive Symbol
  -- arithmetic
  | plus | increment | minus | decrement | times | division | power | remainder
  -- delimiters
  | leftParen | rightParen | leftBrace | rightBrace | leftBracket | rightBracket
  | comma | semicolon | colon | dot
  -- comparison and logic
  | assignment | bang | less | greater | lessEqual | greaterEqual | doubleEqual | notEqual
  | arrow | conjunction | disjunction
  | atSign
  deriving DecidableEq

namespace Symbol

def spelling : Symbol → List Char
  | plus => ['+']
  | increment => ['+', '+']
  | minus => ['-']
  | decrement => ['-', '-']
  | times => ['*']
  | division => ['/']
  | power => ['*', '*']
  | remainder => ['%']
  | leftParen => ['(']
  | rightParen => [')']
  | leftBrace => ['{']
  | rightBrace => ['}']
  | leftBracket => ['[']
  | rightBracket => [']']
  | comma => [',']
  | semicolon => [';']
  | colon => [':']
  | dot => ['.']
  | assignment => ['=']
  | bang => ['!']
  | less => ['<']
  | greater => ['>']
  | lessEqual => ['<', '=']
  | greaterEqual => ['>', '=']
  | doubleEqual => ['=', '=']
  | notEqual => ['!', '=']
  | arrow => ['-', '>']
  | conjunction => ['&', '&']
  | disjunction => ['|', '|']
  | atSign => ['@']

/-- Upper-case name in a token listing. -/
def name : Symbol → String
  | plus => "PLUS"
  | increment => "INCREMENT"
  | minus => "MINUS"
  | decrement => "DECREMENT"
  | times => "MULTIPLY"
  | division => "DIVISION"
  | power => "POWER"
  | remainder => "REMAINDER"
  | leftParen => "LPAREN"
  | rightParen => "RPAREN"
  | leftBrace => "LBRACE"
  | rightBrace => "RBRACE"
  | leftBracket => "LBRACKET"
  | rightBracket => "RBRACKET"
  | comma => "COMMA"
  | semicolon => "SEMICOLON"
  | colon => "COLON"
  | dot => "DOT"
  | assignment => "ASSIGNMENT"
  | bang => "BANG"
  | less => "LT"
  | greater => "GT"
  | lessEqual => "LTE"
  | greaterEqual => "GTE"
  | doubleEqual => "DOUBLEEQUAL"
  | notEqual => "NOTEQUAL"
  | arrow => "ARROW"
  | conjunction => "AND"
  | disjunction => "OR"
  | atSign => "AT"

/-- The symbol written with two given characters. -/
def ofPair? (first second : Char) : Option Symbol :=
  match first, second with
  | '=', '=' => some doubleEqual
  | '+', '+' => some increment
  | '-', '-' => some decrement
  | '-', '>' => some arrow
  | '*', '*' => some power
  | '>', '=' => some greaterEqual
  | '<', '=' => some lessEqual
  | '!', '=' => some notEqual
  | '&', '&' => some conjunction
  | '|', '|' => some disjunction
  | _, _ => none

/-- The symbol written with one given character. -/
def ofChar? (c : Char) : Option Symbol :=
  match c with
  | '(' => some leftParen
  | ')' => some rightParen
  | '{' => some leftBrace
  | '}' => some rightBrace
  | '[' => some leftBracket
  | ']' => some rightBracket
  | ',' => some comma
  | ';' => some semicolon
  | ':' => some colon
  | '.' => some dot
  | '+' => some plus
  | '-' => some minus
  | '*' => some times
  | '/' => some division
  | '%' => some remainder
  | '=' => some assignment
  | '<' => some less
  | '>' => some greater
  | '!' => some bang
  | '@' => some atSign
  | _ => none

theorem ofPair?_eq_some_iff {first second : Char} {symbol : Symbol} :
    ofPair? first second = some symbol ↔ symbol.spelling = [first, second] := by
  constructor
  · intro found
    unfold ofPair? at found
    split at found <;> cases found <;> rfl
  · intro spelled
    cases symbol <;> simp only [spelling, List.cons.injEq, reduceCtorEq, and_false] at spelled <;>
      obtain ⟨rfl, rfl, _⟩ := spelled <;> rfl

theorem ofChar?_eq_some_iff {c : Char} {symbol : Symbol} :
    ofChar? c = some symbol ↔ symbol.spelling = [c] := by
  constructor
  · intro found
    unfold ofChar? at found
    split at found <;> cases found <;> rfl
  · intro spelled
    cases symbol <;> simp only [spelling, List.cons.injEq, reduceCtorEq, and_false] at spelled <;>
      obtain ⟨rfl, _⟩ := spelled <;> rfl

end Symbol

end KlangFront
