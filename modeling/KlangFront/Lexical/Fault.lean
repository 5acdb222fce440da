import KlangFront.Token.Kind

/-!
# Faults of a source text

A fault is one way in which a text fails to be a sequence of lexemes. Each has a
message that says what is wrong and a remedy that says how to mend it, and
neither is ever empty.
-/

namespace KlangFront

inductive Fault
  /-- No lexeme starts with this character. -/
  | strayCharacter (c : Char)
  /-- A `$` without a name after it. -/
  | danglingSigil
  | loneAmpersand
  | loneBar
  /-- A block comment that is not closed. -/
  | openComment
  /-- A line feed between the quotes of a literal. -/
  | lineBreak (quoted : Quoted)
  /-- A backslash followed by a character that it cannot escape. -/
  | badEscape (quoted : Quoted) (c : Char)
  /-- A literal without its closing quote. -/
  | unterminated (quoted : Quoted)
  /-- A character literal with nothing between its quotes. -/
  | emptyCharacter
  /-- A character literal that goes on after its first character. -/
  | crowdedCharacter
  /-- A `.` in a number without a digit after it. -/
  | missingFraction
  /-- A `_` in a number without a digit after it. -/
  | missingGroup
  /-- An alphabetic character directly behind a number. -/
  | wordAfterNumber
  deriving DecidableEq

namespace Fault

def message : Fault → String
  | strayCharacter c => "unexpected character '" ++ c.toString ++ "'"
  | danglingSigil => "'$' must be followed by a letter or underscore"
  | loneAmpersand => "unexpected character '&'"
  | loneBar => "unexpected character '|'"
  | openComment => "unterminated block comment"
  | lineBreak .string => "string cannot contain a line break"
  | lineBreak .character => "character literal cannot contain a line break"
  | badEscape _ c => "invalid escape sequence '\\" ++ c.toString ++ "'"
  | unterminated .string => "unterminated string: unexpected end of file"
  | unterminated .character => "unterminated character literal"
  | emptyCharacter => "empty character literal"
  | crowdedCharacter => "character literal with more than one character"
  | missingFraction => "invalid decimal"
  | missingGroup => "invalid integer"
  | wordAfterNumber => "number followed by invalid identifier"

def remedy : Fault → String
  | strayCharacter _ => "remove this character"
  | danglingSigil => "a sigil identifier looks like '$name'"
  | loneAmpersand => "did you mean '&&'?"
  | loneBar => "did you mean '||'?"
  | openComment => "close the comment with '*/'"
  | lineBreak .string => "close the string before the end of the line"
  | lineBreak .character | emptyCharacter => "put exactly one character between the quotes"
  | badEscape .string _ => "valid escapes are \\n, \\t, \\\" and \\\\"
  | badEscape .character _ => "valid escapes are \\n, \\t, \\' and \\\\"
  | unterminated .string => "expected a closing '\"'"
  | unterminated .character => "expected a closing \"'\""
  | crowdedCharacter => "a character literal looks like 'a' or '\\n'"
  | missingFraction => "a '.' in a number must be followed by a digit"
  | missingGroup => "a '_' in a number must be followed by a digit"
  | wordAfterNumber => "identifiers cannot start with digits"

private theorem append_ne_empty {first : String} (nonempty : first ≠ "") (second : String) :
    first ++ second ≠ "" := by
  intro empty
  rw [String.append_eq_empty_iff] at empty
  exact nonempty empty.1

theorem message_ne_empty (fault : Fault) : fault.message ≠ "" := by
  cases fault with
  | lineBreak quoted | unterminated quoted => cases quoted <;> decide
  | strayCharacter c => exact append_ne_empty (append_ne_empty (by decide) _) _
  | badEscape quoted c => exact append_ne_empty (append_ne_empty (by decide) _) _
  | _ => decide

theorem remedy_ne_empty (fault : Fault) : fault.remedy ≠ "" := by
  cases fault with
  | strayCharacter c => simp only [remedy]; decide
  | badEscape quoted c => cases quoted <;> simp only [remedy] <;> decide
  | lineBreak quoted | unterminated quoted => cases quoted <;> decide
  | _ => decide

end Fault

end KlangFront
