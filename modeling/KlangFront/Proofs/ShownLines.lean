import KlangFront.Proofs.LocatedFaults
import KlangFront.Text.Lines

/-!
# The line that is shown for a place

Positions count line feeds, while the lines that are shown have no empty last line
and give the carriage return of a line end away. `line?_of_lineFeed` and
`line?_of_last` say which line is shown for a place: the characters around it up to
the line feeds, but for that carriage return, and no line at all for a place at the
end of a text that is empty or ends in a line feed.

`Shows` says that a column of a shown line is a given place of the text, as far as
the line has that column; `shows_of_line?` that the column of a position is.
-/

namespace KlangFront.Text

variable {before rest shown : List Char}

theorem lastLine_eq_nil_iff (h : before ≠ []) :
    lastLine before = [] ↔ before.getLast? = some '\n' := by
  rw [lastLine, List.rtakeWhile_eq_nil_iff, List.getLast?_eq_some_getLast h]
  simp [h]

theorem dropReturn_cases (shown : List Char) :
    dropReturn shown = shown ∨ shown = dropReturn shown ++ ['\r'] := by
  unfold dropReturn
  split
  · next hreturn =>
    obtain ⟨front, rfl⟩ := List.getLast?_eq_some_iff.mp hreturn
    exact .inr (by rw [List.dropLast_concat])
  · exact .inl rfl

/-- A place that has a line feed behind it on its line or later. -/
theorem line?_of_lineFeed (h : '\n' ∈ rest) : line? (before ++ rest) (1 + before.count '\n')
    = some (dropReturn (lastLine before ++ rest.takeWhile (· ≠ '\n'))) := by
  have hlater := List.count_pos_iff.mpr h
  have hlength := length_split '\n' (before ++ rest)
  rw [List.count_append] at hlength
  have hindex : before.count '\n' < (split '\n' (before ++ rest)).length - 1 := by omega
  rw [line?, lines, Nat.add_sub_cancel_left, List.getElem?_append_left (by simpa using hindex),
    List.getElem?_map, List.getElem?_dropLast, if_pos hindex, split_at, Option.map_some]

theorem takeWhile_line (h : '\n' ∉ rest) : rest.takeWhile (· ≠ '\n') = rest := by
  rw [List.takeWhile_eq_self_iff]
  intro c hc
  rw [decide_eq_true_eq]
  rintro rfl
  exact h hc

/-- A place on the last line, which is shown unless it is empty. -/
theorem line?_of_last (h : '\n' ∉ rest) : line? (before ++ rest) (1 + before.count '\n')
    = if lastLine before ++ rest = [] then none else some (lastLine before ++ rest) := by
  have hnone := List.count_eq_zero.mpr h
  have hlength := length_split '\n' (before ++ rest)
  rw [List.count_append, hnone] at hlength
  have hlast : (split '\n' (before ++ rest)).getLast? = some (lastLine before ++ rest) := by
    rw [List.getLast?_eq_getElem?, hlength, Nat.add_zero, Nat.add_sub_cancel, split_at,
      takeWhile_line h]
  rw [line?, lines, Nat.add_sub_cancel_left, hlast,
    List.getElem?_append_right (by simp [hlength])]
  by_cases hempty : lastLine before ++ rest = []
  · simp [hempty]
  · simp [hempty, hlength]

/-- The place whose line is not shown: the end of a text, with nothing before it on its line. -/
theorem line?_eq_none_iff : line? (before ++ rest) (1 + before.count '\n') = none ↔
    lastLine before = [] ∧ rest = [] := by
  by_cases hfeed : '\n' ∈ rest
  · rw [line?_of_lineFeed hfeed]
    simp [List.ne_nil_of_mem hfeed]
  · rw [line?_of_last hfeed]
    simp

/-- The line that is shown for a place has the characters around it, and lacks at
most the carriage return before the line feed that ends it. -/
theorem around_of_line? (h : line? (before ++ rest) (1 + before.count '\n') = some shown) :
    lastLine before ++ rest.takeWhile (· ≠ '\n') = shown ∨
      lastLine before ++ rest.takeWhile (· ≠ '\n') = shown ++ ['\r'] ∧ '\n' ∈ rest := by
  by_cases hfeed : '\n' ∈ rest
  · rw [line?_of_lineFeed hfeed] at h
    obtain rfl := Option.some.inj h
    rcases dropReturn_cases (lastLine before ++ rest.takeWhile (· ≠ '\n')) with hsame | hreturn
    · exact .inl hsame.symm
    · exact .inr ⟨hreturn, hfeed⟩
  · rw [line?_of_last hfeed] at h
    split at h
    · cases h
    · cases h
      rw [takeWhile_line hfeed]
      exact .inl rfl

-- ---------------------------------------------------------------------------
-- Columns
-- ---------------------------------------------------------------------------

/-- The column `column` of the line that is shown is the place at `offset`: the
character there, or a character that is not shown at the end of the line. -/
structure Shows (text : List Char) (offset : Nat) (shown : List Char) (column : Nat) : Prop where
  column_le : column ≤ shown.length + 2
  above : column ≤ shown.length → shown[column - 1]? = text[offset]?
  beyond : shown.length < column → offset = text.length ∨ text[offset]? = some '\n' ∨
    text[offset]? = some '\r' ∧ text[offset + 1]? = some '\n'

theorem head?_takeWhile_line (h : rest.takeWhile (· ≠ '\n') ≠ []) :
    (rest.takeWhile (· ≠ '\n')).head? = rest.head? := by
  cases rest with
  | nil => rfl
  | cons c later =>
    by_cases hfeed : c = '\n'
    · simp [hfeed] at h
    · simp [hfeed]

theorem shows_of_line? (h : line? (before ++ rest) (1 + before.count '\n') = some shown) :
    Shows (before ++ rest) before.length shown (1 + (lastLine before).length) := by
  obtain ⟨hhere, hnext, -⟩ := around_length before rest
  have haround := around_of_line? h
  have hlength : shown.length = (lastLine before).length + (rest.takeWhile (· ≠ '\n')).length ∨
      shown.length + 1 = (lastLine before).length + (rest.takeWhile (· ≠ '\n')).length := by
    rw [← List.length_append]
    rcases haround with hsame | ⟨hreturn, -⟩
    · exact .inl (by rw [hsame])
    · exact .inr (by rw [hreturn, List.length_append]; rfl)
  refine ⟨by omega, fun hle => ?_, fun hlt => ?_⟩
  · have hsome : rest.takeWhile (· ≠ '\n') ≠ [] := List.ne_nil_of_length_pos (by omega)
    have hline : shown[(lastLine before).length]? = (rest.takeWhile (· ≠ '\n')).head? := by
      rw [← (around_length (lastLine before) _).1]
      rcases haround with hsame | ⟨hreturn, -⟩
      · rw [hsame]
      · rw [hreturn, List.getElem?_append_left (by omega)]
    rw [Nat.add_sub_cancel_left, hline, hhere, head?_takeWhile_line hsome]
  · cases rest with
    | nil => exact .inl (by rw [List.append_nil])
    | cons c later =>
      by_cases hfeed : c = '\n'
      · exact .inr (.inl (hhere.trans (congrArg some hfeed)))
      · -- the line lacks its last character, which is the one at the place
        have htake : (c :: later).takeWhile (· ≠ '\n') = c :: later.takeWhile (· ≠ '\n') := by
          simp [hfeed]
        rw [htake] at haround hlength
        rw [List.length_cons] at hlength
        have hnone : later.takeWhile (· ≠ '\n') = [] := List.eq_nil_of_length_eq_zero (by omega)
        rw [hnone] at haround
        rcases haround with hsame | ⟨hreturn, hmem⟩
        · rw [← hsame, List.length_append, List.length_singleton] at hlt
          omega
        · have hlater : '\n' ∈ later := by simpa [Ne.symm hfeed] using hmem
          obtain ⟨-, hlast⟩ := List.append_inj' hreturn rfl
          obtain rfl : c = '\r' := by simpa using hlast
          refine .inr (.inr ⟨hhere, hnext.trans ?_⟩)
          cases later with
          | nil => cases hlater
          | cons d later =>
            obtain rfl : d = '\n' := by simpa using hnone
            rfl

end KlangFront.Text
