import KlangFront.Lexical.Piece

/-!
# Which characters can open a piece

White space, word characters, digits and the first characters of the symbols
are kept apart by their tables, so at most one reader applies to a character.
The tables of white space and of ASCII digits are short: facts about them are
checked code point by code point.
-/

namespace KlangFront

open CodeRange (search)

-- ---------------------------------------------------------------------------
-- Runs
-- ---------------------------------------------------------------------------

/-- The longest run of a class at the front of a text is the part that lies in
the class and is not followed by a member of it. -/
theorem run_eq_iff {p : Char → Bool} {text run rest : List Char} :
    (text.takeWhile p = run ∧ text.dropWhile p = rest) ↔
      text = run ++ rest ∧ (∀ c ∈ run, p c = true) ∧ ∀ c ∈ rest.head?, p c = false := by
  constructor
  · rintro ⟨rfl, rfl⟩
    refine ⟨List.takeWhile_append_dropWhile.symm, List.all_eq_true.mp List.all_takeWhile, ?_⟩
    intro c hc
    have hnot := List.head?_dropWhile_not p text
    rw [Option.mem_def.mp hc] at hnot
    simpa using hnot
  · rintro ⟨rfl, hrun, hrest⟩
    have hstop : rest.takeWhile p = [] ∧ rest.dropWhile p = rest := by
      cases rest with
      | nil => exact ⟨rfl, rfl⟩
      | cons c later => simp [hrest c rfl]
    rw [List.takeWhile_append_of_pos hrun, List.dropWhile_append_of_pos hrun, hstop.1, hstop.2]
    exact ⟨List.append_nil run, rfl⟩

-- ---------------------------------------------------------------------------
-- Code points
-- ---------------------------------------------------------------------------

/-- The code points of a range, in ascending order. -/
def CodeRange.codes (range : CodeRange) : List Nat :=
  List.range' range.first (range.last + 1 - range.first)

theorem CodeRange.Contains.mem_codes {range : CodeRange} {code : Nat}
    (h : range.Contains code) : code ∈ range.codes := by
  obtain ⟨above, below⟩ := h
  rw [CodeRange.codes, List.mem_range'_1]
  omega

def asciiDigits : CodeRange := ⟨0x30, 0x39⟩

theorem asciiDigits_contains {c : Char} (h : c.isDigit = true) :
    asciiDigits.Contains c.toNat := by
  simp only [Char.isDigit, Bool.and_eq_true, decide_eq_true_eq, ge_iff_le] at h
  exact ⟨UInt32.le_iff_toNat_le.mp h.1, UInt32.le_iff_toNat_le.mp h.2⟩

private theorem whiteSpace_codes : ∀ range ∈ whiteSpaceTable, ∀ code ∈ range.codes,
    search alphabeticTable code = false ∧ search numericTable code = false ∧
      code ≠ '_'.toNat := by
  decide +kernel

private theorem digit_codes : ∀ code ∈ asciiDigits.codes,
    search alphabeticTable code = false ∧ search numericTable code = true ∧
      code ≠ '_'.toNat := by
  decide +kernel

-- ---------------------------------------------------------------------------
-- White space, words and digits
-- ---------------------------------------------------------------------------

/-- A character outside a class differs from every member of it. -/
theorem ne_of_class {p : Char → Bool} {c d : Char} (hd : p d = false) (hc : p c = true) :
    c ≠ d := by
  rintro rfl
  rw [hd] at hc
  cases hc

theorem isWordPart_of_isWhiteSpace {c : Char} (h : isWhiteSpace c = true) :
    isWordPart c = false := by
  obtain ⟨range, hr, hc⟩ := (isWhiteSpace_iff c).mp h
  obtain ⟨ha, hn, hu⟩ := whiteSpace_codes range hr c.toNat hc.mem_codes
  have hne : c ≠ '_' := fun hc => hu (congrArg Char.toNat hc)
  simp [isWordPart, isAlphabetic, isNumeric, ha, hn, hne]

theorem isWordPart_of_isDigit {c : Char} (h : c.isDigit = true) : isWordPart c = true := by
  have hn : isNumeric c = true := (digit_codes c.toNat (asciiDigits_contains h).mem_codes).2.1
  simp [isWordPart, hn]

theorem isWordStart_of_isDigit {c : Char} (h : c.isDigit = true) : isWordStart c = false := by
  obtain ⟨ha, _, hu⟩ := digit_codes c.toNat (asciiDigits_contains h).mem_codes
  have hne : c ≠ '_' := fun hc => hu (congrArg Char.toNat hc)
  simp [isWordStart, isAlphabetic, ha, hne]

theorem isWhiteSpace_of_isWordPart {c : Char} (h : isWordPart c = true) :
    isWhiteSpace c = false := by
  cases hs : isWhiteSpace c with
  | false => rfl
  | true => rw [isWordPart_of_isWhiteSpace hs] at h; cases h

theorem isDigit_of_isWhiteSpace {c : Char} (h : isWhiteSpace c = true) : c.isDigit = false := by
  cases hd : c.isDigit with
  | false => rfl
  | true =>
    have hw := isWordPart_of_isDigit hd
    rw [isWordPart_of_isWhiteSpace h] at hw
    cases hw

end KlangFront
