import KlangFront.Text.CodeRange

/-!
# White space

The 25 characters with the Unicode property White_Space: the breaks and blanks
of ASCII, the two of Latin-1, and the wide and separating spaces.
-/

namespace KlangFront

def whiteSpaceTable : List CodeRange := [
  ⟨0x0009, 0x000D⟩, ⟨0x0020, 0x0020⟩, ⟨0x0085, 0x0085⟩, ⟨0x00A0, 0x00A0⟩, ⟨0x1680, 0x1680⟩,
  ⟨0x2000, 0x200A⟩, ⟨0x2028, 0x2029⟩, ⟨0x202F, 0x202F⟩, ⟨0x205F, 0x205F⟩, ⟨0x3000, 0x3000⟩]

def isWhiteSpace (c : Char) : Bool :=
  CodeRange.search whiteSpaceTable c.toNat

theorem whiteSpaceTable_ascending : CodeRange.Ascending whiteSpaceTable := by
  decide +kernel

theorem isWhiteSpace_iff (c : Char) :
    isWhiteSpace c = true ↔ ∃ range ∈ whiteSpaceTable, range.Contains c.toNat :=
  CodeRange.search_eq_true_iff whiteSpaceTable_ascending c.toNat

end KlangFront
