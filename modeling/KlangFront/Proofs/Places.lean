import KlangFront.Source.Position
import KlangFront.Source.Span
import KlangFront.Text.Split
import Mathlib.Data.List.DropRight

/-!
# Places in a source text

A place is an offset into the source. Its line and its column are counts over the
text before it: line feeds, and characters behind the last of them. `StartsAt`,
`PointsAt` and `Covers` say of a span that it shows such counts, as far as a
coordinate can. A source with fewer characters than the largest coordinate never
reaches that limit; there the spans of texts in order are in order
(`Span.Covers.precedes`) and a span marks exactly its text in its line
(`Span.Covers.excerpt`).
-/

namespace KlangFront

/-- The characters behind the last line feed of a text. -/
def Text.lastLine (text : List Char) : List Char := text.rtakeWhile (· ≠ '\n')

/-- What a coordinate shows of a positive count. -/
def Coord.saturate (count : Nat) : Nat := min count limit

namespace Span

open Coord (saturate)
open Text (lastLine)

structure StartsAt (span : Span) (file : Option String) (source : List Char) (offset : Nat) :
    Prop where
  file : span.file = file
  startLine : span.startLine.toNat = saturate (1 + (source.take offset).count '\n')
  startColumn : span.startColumn.toNat = saturate (1 + (lastLine (source.take offset)).length)

/-- The span is the one character at an offset, or the end of the text there. -/
structure PointsAt (span : Span) (file : Option String) (source : List Char) (offset : Nat) : Prop
    extends StartsAt span file source offset where
  endLine : span.endLine = span.startLine
  endColumn : span.endColumn = span.startColumn

/-- The span is the characters from the offset `first` to the one before `last`, on one line. -/
structure Covers (span : Span) (file : Option String) (source : List Char) (first last : Nat) :
    Prop extends StartsAt span file source first where
  endLine : span.endLine = span.startLine
  endColumn : span.endColumn.toNat = saturate (lastLine (source.take last)).length

/-- The first span is over before the second one starts. -/
def Before (span other : Span) : Prop :=
  span.endLine.toNat < other.startLine.toNat ∨
    span.endLine = other.startLine ∧ span.endColumn.toNat < other.startColumn.toNat

/-- The characters between the columns of a span, in the line of the source that it starts in. -/
def excerpt? (span : Span) (source : List Char) : Option (List Char) :=
  (Text.split '\n' source)[span.startLine.toNat - 1]?.map fun line =>
    (line.take span.endColumn.toNat).drop (span.startColumn.toNat - 1)

end Span

-- ---------------------------------------------------------------------------
-- Lines
-- ---------------------------------------------------------------------------

namespace Text

variable {before text rest : List Char}

theorem lastLine_concat (text : List Char) (c : Char) :
    lastLine (text ++ [c]) = if c = '\n' then [] else lastLine text ++ [c] := by
  split
  · next hfeed => exact List.rtakeWhile_concat_neg _ _ _ (by simpa using hfeed)
  · next hother => exact List.rtakeWhile_concat_pos _ _ _ (by simpa using hother)

theorem lastLine_append (h : '\n' ∉ text) :
    lastLine (before ++ text) = lastLine before ++ text := by
  induction text using List.reverseRecOn with
  | nil => simp
  | append_singleton text c ih =>
    simp only [List.mem_append, List.mem_singleton, not_or] at h
    rw [← List.append_assoc, lastLine_concat, if_neg (Ne.symm h.2), ih h.1, List.append_assoc]

theorem head?_split (text : List Char) :
    (split '\n' text).head? = some (text.takeWhile (· ≠ '\n')) := by
  induction text with
  | nil => rfl
  | cons c text ih =>
    by_cases hfeed : c = '\n'
    · simp [hfeed]
    · rw [split_cons_of_ne hfeed, List.head?_cons, List.headD_eq_head?_getD, ih]
      simp [hfeed]

/-- The line of a place: what comes before it there, and what comes behind. -/
theorem split_at (before rest : List Char) : (split '\n' (before ++ rest))[before.count '\n']?
    = some (lastLine before ++ rest.takeWhile (· ≠ '\n')) := by
  induction before using List.reverseRecOn generalizing rest with
  | nil => simpa [lastLine, List.head?_eq_getElem?] using head?_split rest
  | append_singleton before c ih =>
    rw [List.append_assoc, List.singleton_append, lastLine_concat, List.count_append]
    by_cases hfeed : c = '\n'
    · have hlines : before.count '\n' + 1 = (split '\n' before).length :=
        (length_split '\n' before).symm
      rw [hfeed, split_append_separator, List.count_singleton_self, hlines,
        List.getElem?_append_right (Nat.le_refl _), Nat.sub_self, ← List.head?_eq_getElem?,
        head?_split]
      simp
    · simpa [hfeed] using ih (c :: rest)

theorem length_lastLine_le (text : List Char) : (lastLine text).length ≤ text.length :=
  (List.rtakeWhile_suffix ..).length_le

end Text

-- ---------------------------------------------------------------------------
-- Positions
-- ---------------------------------------------------------------------------

theorem Position.after_start (text : List Char) :
    start.after text = ⟨text.count '\n', (Text.lastLine text).length⟩ := by
  induction text using List.reverseRecOn with
  | nil => rfl
  | append_singleton text c ih =>
    rw [after_append, ih, after_cons, after_nil, Text.lastLine_concat, List.count_append, step]
    by_cases hfeed : c = '\n' <;> simp [hfeed]

theorem Coord.toNat_clamp_succ (count : Nat) :
    (clamp (count + 1)).toNat = saturate (1 + count) := by
  rw [toNat_clamp, saturate]
  omega

theorem Coord.saturate_of_le {count : Nat} (h : count ≤ limit) : saturate count = count :=
  Nat.min_eq_left h

-- ---------------------------------------------------------------------------
-- Spans
-- ---------------------------------------------------------------------------

namespace Span

open Coord (saturate saturate_of_le)
open Text (lastLine)

variable {span other : Span} {file : Option String} {source before text middle rest : List Char}

theorem take_of_isPrefix (h : before <+: source) : source.take before.length = before :=
  (List.prefix_iff_eq_take.mp h).symm

theorem startsAt_onLine (h : before <+: source) (finish : Coord) :
    (onLine file (Position.start.after before).line (Position.start.after before).column
      finish).StartsAt file source before.length where
  file := rfl
  startLine := by
    rw [take_of_isPrefix h, Position.after_start]
    exact Coord.toNat_clamp_succ _
  startColumn := by
    rw [take_of_isPrefix h, Position.after_start]
    exact Coord.toNat_clamp_succ _

theorem pointsAt_point (h : before <+: source) :
    (point file (Position.start.after before).line (Position.start.after before).column).PointsAt
      file source before.length where
  toStartsAt := startsAt_onLine h _
  endLine := rfl
  endColumn := by simp [point, onLine, Coord.max]

/-- The span from the place behind `before` to the last character of `text`. -/
theorem covers_onLine (h : before ++ text <+: source) (hline : '\n' ∉ text) (hsome : text ≠ []) :
    (onLine file (Position.start.after before).line (Position.start.after before).column
      (Position.start.after (before ++ text)).lastColumn).Covers
      file source before.length (before ++ text).length where
  toStartsAt := startsAt_onLine ((List.prefix_append before text).trans h) _
  endLine := rfl
  endColumn := by
    have htext := List.length_pos_iff.mpr hsome
    have hlast : (lastLine (before ++ text)).length = (lastLine before).length + text.length := by
      rw [Text.lastLine_append hline, List.length_append]
    rw [take_of_isPrefix h, Position.after_start, Position.after_start]
    simp only [onLine, Position.column, Position.lastColumn, Coord.toNat_max, Coord.toNat_clamp,
      saturate]
    rw [Nat.max_eq_max, Nat.max_eq_right (by omega)]
    omega

-- ---------------------------------------------------------------------------
-- Below the limit
-- ---------------------------------------------------------------------------

theorem StartsAt.exact (h : span.StartsAt file source before.length) (hsource : before <+: source)
    (hshort : source.length < Coord.limit) :
    span.startLine.toNat = 1 + before.count '\n' ∧
      span.startColumn.toNat = 1 + (lastLine before).length := by
  have hlength := hsource.length_le
  have hcount := List.count_le_length (a := '\n') (l := before)
  have hcolumn := Text.length_lastLine_le before
  rw [h.startLine, h.startColumn, take_of_isPrefix hsource]
  exact ⟨saturate_of_le (by omega), saturate_of_le (by omega)⟩

theorem Covers.exact (h : span.Covers file source before.length (before ++ text).length)
    (hsource : before ++ text <+: source) (hline : '\n' ∉ text)
    (hshort : source.length < Coord.limit) :
    span.endColumn.toNat = (lastLine before).length + text.length := by
  have hlength := hsource.length_le
  have hcolumn := Text.length_lastLine_le (before ++ text)
  rw [h.endColumn, take_of_isPrefix hsource, saturate_of_le (by omega),
    Text.lastLine_append hline, List.length_append]

/-- A span ends before every span that starts behind its text. -/
theorem Covers.precedes (h : span.Covers file source before.length (before ++ text).length)
    (hother : other.StartsAt file source (before ++ text ++ middle).length)
    (hsource : before ++ text ++ middle <+: source) (hline : '\n' ∉ text)
    (hshort : source.length < Coord.limit) : span.Before other := by
  have hend : before ++ text <+: source := (List.prefix_append _ middle).trans hsource
  have hlines := (h.toStartsAt.exact ((List.prefix_append _ text).trans hend) hshort).1
  obtain ⟨hother_line, hother_column⟩ := hother.exact hsource hshort
  have hnone : text.count '\n' = 0 := List.count_eq_zero.mpr hline
  rw [List.count_append, List.count_append] at hother_line
  unfold Before
  rw [h.endLine]
  by_cases hfeed : '\n' ∈ middle
  · have hmiddle := List.count_pos_iff.mpr hfeed
    left
    omega
  · have hmiddle : middle.count '\n' = 0 := List.count_eq_zero.mpr hfeed
    rw [Text.lastLine_append hfeed, Text.lastLine_append hline, List.length_append,
      List.length_append] at hother_column
    rw [h.exact hend hline hshort]
    exact .inr ⟨Coord.toNat_injective (by omega), by omega⟩

theorem Covers.length (h : span.Covers file source before.length (before ++ text).length)
    (hsource : before ++ text <+: source) (hline : '\n' ∉ text) (hsome : text ≠ [])
    (hshort : source.length < Coord.limit) :
    span.length?.map UInt32.toNat = some text.length := by
  have hcolumn := (h.toStartsAt.exact ((List.prefix_append _ text).trans hsource) hshort).2
  have hend := h.exact hsource hline hshort
  have htext := List.length_pos_iff.mpr hsome
  have hlength := hsource.length_le
  rw [List.length_append] at hlength
  have hle : span.startColumn ≤ span.endColumn := Coord.le_iff_toNat_le.mpr (by omega)
  have hsingle : span.isSingleLine = true := by simp [isSingleLine, h.endLine]
  rw [length?, if_pos hsingle, Option.map_some, Coord.toNat_width hle, hcolumn, hend]
  exact congrArg some (by omega)

theorem Covers.excerpt (h : span.Covers file source before.length (before ++ text).length)
    (hsource : before ++ text <+: source) (hline : '\n' ∉ text)
    (hshort : source.length < Coord.limit) : span.excerpt? source = some text := by
  obtain ⟨hlines, hcolumn⟩ :=
    h.toStartsAt.exact ((List.prefix_append _ text).trans hsource) hshort
  have hend := h.exact hsource hline hshort
  obtain ⟨rest, rfl⟩ := hsource
  have htext : (text ++ rest).takeWhile (· ≠ '\n') = text ++ rest.takeWhile (· ≠ '\n') :=
    List.takeWhile_append_of_pos fun c hc => by
      rw [decide_eq_true_eq]
      rintro rfl
      exact hline hc
  rw [excerpt?, hlines, hcolumn, hend, Nat.add_sub_cancel_left, Nat.add_sub_cancel_left,
    List.append_assoc, Text.split_at, htext, ← List.append_assoc, Option.map_some,
    ← List.length_append, List.take_left, List.drop_left]

end Span

end KlangFront
