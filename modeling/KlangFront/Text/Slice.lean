/-!
# Slices of a text

A slice is cut out of a text between two offsets in bytes. There is only one if both
offsets lie between characters, or at an end of the text, and are in order:
`Text.between?_eq_some_iff`.
-/

namespace KlangFront.Text

/-- The text between two offsets. -/
def between? (text : String) (first last : String.Pos.Raw) : Option String := do
  let start ← text.pos? first
  let finish ← text.pos? last
  let slice ← text.slice? start finish
  return slice.copy

private theorem pos?_eq_some_iff {text : String} {offset : String.Pos.Raw} {place : text.Pos} :
    text.pos? offset = some place ↔ place.offset = offset := by
  simp only [String.pos?, String.Slice.pos?]
  constructor
  · intro found
    split at found
    · cases found
      rfl
    · cases found
  · rintro rfl
    have valid : String.Pos.Raw.isValidForSlice text.toSlice place.offset = true :=
      String.Pos.Raw.isValidForSlice_eq_true_iff.mpr place.isValid.toSlice
    rw [dif_pos valid]
    rfl

theorem between?_eq_some_iff {text part : String} {first last : String.Pos.Raw} :
    between? text first last = some part ↔ ∃ front rest, text = front ++ part ++ rest ∧
      first = front.rawEndPos ∧ last = (front ++ part).rawEndPos := by
  simp only [between?, String.slice?, bind, Option.bind_eq_some_iff, pos?_eq_some_iff]
  constructor
  · rintro ⟨start, rfl, finish, rfl, slice, found, same⟩
    split at found
    · next order =>
      cases found
      cases same
      obtain ⟨front, rest, before, behind⟩ := String.copy_slice_eq_iff_splits.mp ⟨order, rfl⟩
      exact ⟨front, rest, behind.eq_append, before.offset_eq_rawEndPos,
        behind.offset_eq_rawEndPos⟩
    · cases found
  · rintro ⟨front, rest, rfl, rfl, rfl⟩
    have before := String.Pos.splits_ofEqAppend
      (String.append_assoc : front ++ part ++ rest = front ++ (part ++ rest))
    have behind := String.Pos.splits_ofEqAppend
      (rfl : front ++ part ++ rest = (front ++ part) ++ rest)
    obtain ⟨order, same⟩ := String.copy_slice_eq_iff_splits.mpr ⟨front, rest, before, behind⟩
    exact ⟨_, before.offset_eq_rawEndPos, _, behind.offset_eq_rawEndPos, _, dif_pos order,
      congrArg some same⟩

end KlangFront.Text
