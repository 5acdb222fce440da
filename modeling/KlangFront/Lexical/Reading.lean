import KlangFront.Lexical.Fault

/-!
# Reading from the front of a text

A reading either takes a part off the front of a text or stops. What it takes is
the text that it read, character by character, so that the part and the rest make
up the text again. A stop names the fault and the characters that were passed
before the offending one.
-/

namespace KlangFront

structure Stop where
  fault : Fault
  passed : List Char
  deriving DecidableEq

/-- The stop as seen from a point that lies a given text earlier. -/
def Stop.behind (stop : Stop) (before : List Char) : Stop :=
  { stop with passed := before ++ stop.passed }

/-- A part of a text with the rest of the text, or a stop. -/
abbrev Reading (α : Type) := Except Stop (α × List Char)

/-- Results can be compared, so a reading of a given text is checked by evaluation. -/
instance decEqExcept {ε α : Type} [DecidableEq ε] [DecidableEq α] : DecidableEq (Except ε α)
  | .ok a, .ok b => decidable_of_iff (a = b) (Except.ok.injEq a b ▸ Iff.rfl)
  | .error a, .error b => decidable_of_iff (a = b) (Except.error.injEq a b ▸ Iff.rfl)
  | .ok _, .error _ | .error _, .ok _ => isFalse nofun

end KlangFront
