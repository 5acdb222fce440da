import KlangFront.Text.Alphabetic
import KlangFront.Text.Numeric

/-!
# Words

Names and reserved words start with an alphabetic character or an underscore and
go on with alphabetic and numeric characters and underscores, of any script.
-/

namespace KlangFront

def isWordStart (c : Char) : Bool := isAlphabetic c || c == '_'

def isWordPart (c : Char) : Bool := isAlphabetic c || isNumeric c || c == '_'

theorem isWordPart_of_isWordStart {c : Char} (start : isWordStart c = true) :
    isWordPart c = true := by
  unfold isWordStart at start
  unfold isWordPart
  grind

end KlangFront
