/-!
# Line and column numbers

Lines and columns are counted from one in 32-bit words. `Coord.clamp` turns an
exact count into a coordinate: a count beyond the largest word stays at the
largest, and zero becomes one. Its value in the natural numbers is `toNat_clamp`.
-/

namespace KlangFront

/-- A one-based line or column number: a positive 32-bit word. -/
structure Coord where
  word : UInt32
  positive : 0 < word
  deriving DecidableEq

namespace Coord

def toNat (coord : Coord) : Nat := coord.word.toNat

/-- The largest count that a coordinate holds, which is the largest 32-bit word. -/
def limit : Nat := 4294967295

def ofWord? (word : UInt32) : Option Coord :=
  if positive : 0 < word then some ⟨word, positive⟩ else none

theorem one_le_toNat (coord : Coord) : 1 ≤ coord.toNat :=
  UInt32.lt_iff_toNat_lt.mp coord.positive

theorem toNat_le_limit (coord : Coord) : coord.toNat ≤ limit := by
  have := coord.word.toNat_lt
  simp only [toNat, limit]
  omega

theorem toNat_injective {a b : Coord} (same : a.toNat = b.toNat) : a = b := by
  cases a
  cases b
  simpa [toNat, UInt32.toNat_inj] using same

private theorem clamp_lt (count : Nat) : min (max 1 count) limit < UInt32.size := by
  simp only [limit, UInt32.size]
  omega

/-- The coordinate nearest to a count. -/
def clamp (count : Nat) : Coord where
  word := UInt32.ofNatLT (min (max 1 count) limit) (clamp_lt count)
  positive := by
    rw [UInt32.lt_iff_toNat_lt]
    simp only [UInt32.toNat_ofNatLT, limit]
    change 0 < _
    omega

theorem toNat_clamp (count : Nat) : (clamp count).toNat = min (max 1 count) limit := by
  simp [toNat, clamp]

instance : LE Coord := ⟨fun a b => a.word ≤ b.word⟩

instance (a b : Coord) : Decidable (a ≤ b) :=
  inferInstanceAs (Decidable (a.word ≤ b.word))

theorem le_iff_toNat_le {a b : Coord} : a ≤ b ↔ a.toNat ≤ b.toNat :=
  UInt32.le_iff_toNat_le

def max (a b : Coord) : Coord := if a ≤ b then b else a

theorem le_max_left (a b : Coord) : a ≤ a.max b := by
  unfold max
  split
  · assumption
  · exact le_iff_toNat_le.mpr (Nat.le_refl _)

theorem toNat_max (a b : Coord) : (a.max b).toNat = Nat.max a.toNat b.toNat := by
  unfold max
  split <;> next order => rw [le_iff_toNat_le] at order; grind

/-- How many columns there are from one to another one, both counted, in words. -/
theorem toNat_width {first last : Coord} (order : first ≤ last) :
    (last.word - first.word + 1).toNat = last.toNat - first.toNat + 1 := by
  have difference : (last.word - first.word).toNat = last.toNat - first.toNat :=
    UInt32.toNat_sub_of_le _ _ order
  have positive := first.one_le_toNat
  have bound := last.toNat_le_limit
  unfold limit at bound
  rw [UInt32.toNat_add, difference, UInt32.toNat_one, Nat.mod_eq_of_lt (by omega)]

/-- The decimal digits of a coordinate. -/
def text (coord : Coord) : String := coord.toNat.repr

theorem isDigit_of_mem_text {coord : Coord} {c : Char} (h : c ∈ coord.text.toList) :
    c.isDigit := by
  rw [text, Nat.toList_repr] at h
  exact Nat.isDigit_of_mem_toDigits (by decide) (by decide) h

theorem not_mem_text {coord : Coord} {c : Char} (other : ¬ c.isDigit) : c ∉ coord.text.toList :=
  fun h => other (isDigit_of_mem_text h)

theorem ofDigitChars_text (coord : Coord) :
    Nat.ofDigitChars 10 coord.text.toList 0 = coord.toNat := by
  rw [text, Nat.toList_repr, Nat.ofDigitChars_ten_toDigits]

theorem text_injective {a b : Coord} (same : a.text = b.text) : a = b :=
  toNat_injective (by rw [← ofDigitChars_text, same, ofDigitChars_text])

end Coord

end KlangFront
