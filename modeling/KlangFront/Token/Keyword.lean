/-!
# Reserved words

The 24 words that cannot be names. `Keyword.spelling` is their table.
`Keyword.ofSpelling?` compares a text only with the words of its own byte
length, and with none if its length or its first character rules out a reserved
word; `ofSpelling?_eq_some_iff` says that this reads the table backwards.
-/

namespace KlangFront

inductive Keyword
  -- control flow
  | kwReturn | kwIf | kwOtherwise | kwAfterall | kwFor | kwWhile | kwBreak | kwContinue | kwTry
  | kwCatch
  -- modifiers
  | kwPublic | kwPrivate | kwProtected | kwStatic
  -- values
  | kwTrue | kwFalse | kwNull | kwFresh
  -- types
  | kwInteger | kwDouble | kwBoolean | kwCharacter | kwString | kwVoid
  deriving DecidableEq

namespace Keyword

def spelling : Keyword → String
  | kwReturn => "return"
  | kwIf => "if"
  | kwOtherwise => "otherwise"
  | kwAfterall => "afterall"
  | kwFor => "for"
  | kwWhile => "while"
  | kwBreak => "break"
  | kwContinue => "continue"
  | kwTry => "try"
  | kwCatch => "catch"
  | kwPublic => "public"
  | kwPrivate => "private"
  | kwProtected => "protected"
  | kwStatic => "static"
  | kwTrue => "true"
  | kwFalse => "false"
  | kwNull => "null"
  | kwFresh => "fresh"
  | kwInteger => "integer"
  | kwDouble => "double"
  | kwBoolean => "boolean"
  | kwCharacter => "character"
  | kwString => "String"
  | kwVoid => "void"

/-- Upper-case name in a token listing. -/
def name : Keyword → String
  | kwReturn => "RETURN"
  | kwIf => "IF"
  | kwOtherwise => "OTHERWISE"
  | kwAfterall => "AFTERALL"
  | kwFor => "FOR"
  | kwWhile => "WHILE"
  | kwBreak => "BREAK"
  | kwContinue => "CONTINUE"
  | kwTry => "TRY"
  | kwCatch => "CATCH"
  | kwPublic => "PUBLIC"
  | kwPrivate => "PRIVATE"
  | kwProtected => "PROTECTED"
  | kwStatic => "STATIC"
  | kwTrue => "TRUE"
  | kwFalse => "FALSE"
  | kwNull => "NULL"
  | kwFresh => "FRESH"
  | kwInteger => "INTEGER"
  | kwDouble => "DOUBLE"
  | kwBoolean => "BOOLEAN"
  | kwCharacter => "CHARACTER_TYPE"
  | kwString => "STRING_TYPE"
  | kwVoid => "VOID"

/-- The reserved words that take `size` bytes. -/
def ofSize (size : Nat) : List Keyword :=
  match size with
  | 2 => [kwIf]
  | 3 => [kwFor, kwTry]
  | 4 => [kwTrue, kwVoid, kwNull]
  | 5 => [kwWhile, kwBreak, kwFalse, kwFresh, kwCatch]
  | 6 => [kwReturn, kwPublic, kwStatic, kwDouble, kwString]
  | 7 => [kwPrivate, kwInteger, kwBoolean]
  | 8 => [kwContinue, kwAfterall]
  | 9 => [kwOtherwise, kwProtected, kwCharacter]
  | _ => []

/-- Whether a text has the length and the first character of some reserved word: two to nine
bytes, and a letter of ASCII. -/
def mayBeSpelling (text : String) : Bool :=
  decide (2 ≤ text.utf8ByteSize ∧ text.utf8ByteSize ≤ 9) && text.toList.head?.any Char.isAlpha

/-- The reserved word that a text spells. -/
def ofSpelling? (text : String) : Option Keyword :=
  if mayBeSpelling text then (ofSize text.utf8ByteSize).find? (·.spelling == text) else none

theorem ofSpelling?_spelling (word : Keyword) : ofSpelling? word.spelling = some word := by
  cases word <;> rfl

theorem ofSpelling?_eq_some_iff {text : String} {word : Keyword} :
    ofSpelling? text = some word ↔ word.spelling = text := by
  constructor
  · intro found
    unfold ofSpelling? at found
    split at found
    · simpa using List.find?_some found
    · cases found
  · rintro rfl
    exact ofSpelling?_spelling word

end Keyword

end KlangFront
