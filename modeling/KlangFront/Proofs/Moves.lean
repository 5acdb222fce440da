import KlangFront.Proofs.TokenSpans

/-!
# Texts behind other texts

A text that is read behind another one keeps its tokens; only their places move.
`Span.MovedBy` says how: every line goes down by the line feeds in front, and on
the first line the characters behind the last of these come before every column.
Where the text in front ends in a line feed no column moves (`Span.LoweredBy`).

`ReadBehind` compares the outcome of a text read alone with that of a text read
behind given tokens. Together with the spans of lexemes, points and the end of the
input it is all that moving a text means: `Tiles.readBehind`.
-/

namespace KlangFront

open Text (lastLine)

-- ---------------------------------------------------------------------------
-- Moved spans
-- ---------------------------------------------------------------------------

/-- The same characters in a text of which `lines` line feeds, and `columns`
characters behind the last of them, stand in front. -/
structure Span.MovedBy (lines columns : Nat) (span other : Span) : Prop where
  file : other.file = span.file
  startLine : other.startLine.toNat = span.startLine.toNat + lines
  endLine : other.endLine.toNat = span.endLine.toNat + lines
  startColumn : other.startColumn.toNat
    = span.startColumn.toNat + if span.startLine.toNat = 1 then columns else 0
  endColumn : other.endColumn.toNat
    = span.endColumn.toNat + if span.endLine.toNat = 1 then columns else 0

/-- The same characters of their lines, and `lines` more lines in front. -/
structure Span.LoweredBy (lines : Nat) (span other : Span) : Prop where
  file : other.file = span.file
  startLine : other.startLine.toNat = span.startLine.toNat + lines
  endLine : other.endLine.toNat = span.endLine.toNat + lines
  startColumn : other.startColumn = span.startColumn
  endColumn : other.endColumn = span.endColumn

/-- Two tokens that differ in nothing but their spans, which are related as given. -/
structure Token.Moved (spans : Span → Span → Prop) (token other : Token) : Prop where
  kind : other.kind = token.kind
  lexeme : other.lexeme = token.lexeme
  span : spans token.span other.span

/-- Two errors that differ in nothing but their spans, which are related as given. -/
structure LexicalError.Moved (spans : Span → Span → Prop) (error other : LexicalError) :
    Prop where
  fault : other.fault = error.fault
  span : spans error.span other.span

/-- The outcome of a text that is read alone, and the outcome where it is read
behind the tokens `before`: either both have the tokens of the text or both its error. -/
inductive ReadBehind (before : List Token) (spans : Span → Span → Prop) :
    Except LexicalError (List Token) → Except LexicalError (List Token) → Prop
  | tokens {alone moved : List Token} : List.Forall₂ (Token.Moved spans) alone moved →
      ReadBehind before spans (.ok alone) (.ok (before ++ moved))
  | error {alone moved : LexicalError} : alone.Moved spans moved →
      ReadBehind before spans (.error alone) (.error moved)

theorem Span.MovedBy.loweredBy {lines : Nat} {span other : Span} (h : span.MovedBy lines 0 other) :
    span.LoweredBy lines other where
  file := h.file
  startLine := h.startLine
  endLine := h.endLine
  startColumn := Coord.toNat_injective (by simpa using h.startColumn)
  endColumn := Coord.toNat_injective (by simpa using h.endColumn)

variable {file : Option String} {front rest before text : List Char}

theorem Text.lastLine_append_of_mem (h : '\n' ∈ text) :
    lastLine (front ++ text) = lastLine text := by
  induction text using List.reverseRecOn with
  | nil => cases h
  | append_singleton text c ih =>
    rw [← List.append_assoc, lastLine_concat, lastLine_concat]
    split
    · rfl
    · next hother =>
      have htext : '\n' ∈ text := by simpa [Ne.symm hother] using h
      rw [ih htext]

/-- The column of a place depends on a text in front only if no line feed comes between. -/
theorem Text.length_lastLine_append (front text : List Char) : (lastLine (front ++ text)).length
    = (lastLine text).length + if text.count '\n' = 0 then (lastLine front).length else 0 := by
  split
  · next hnone =>
    have hline : '\n' ∉ text := List.count_eq_zero.mp hnone
    have halone : lastLine ([] ++ text) = text := lastLine_append hline
    rw [List.nil_append] at halone
    rw [lastLine_append hline, halone, List.length_append, Nat.add_comm]
  · next hsome =>
    have hfeed : '\n' ∈ text := List.count_pos_iff.mp (Nat.pos_of_ne_zero hsome)
    rw [lastLine_append_of_mem hfeed, Nat.add_zero]

namespace Span

variable {span other : Span}

theorem StartsAt.moved (h : span.StartsAt file rest before.length)
    (hother : other.StartsAt file (front ++ rest) (front ++ before).length)
    (hrest : before <+: rest) (hshort : (front ++ rest).length < Coord.limit) :
    other.startLine.toNat = span.startLine.toNat + front.count '\n' ∧
      other.startColumn.toNat = span.startColumn.toNat
        + if span.startLine.toNat = 1 then (lastLine front).length else 0 := by
  have hwhole : front ++ before <+: front ++ rest := List.prefix_append_right_inj front |>.mpr hrest
  have hlength : rest.length < Coord.limit := by
    rw [List.length_append] at hshort
    omega
  obtain ⟨hline, hcolumn⟩ := h.exact hrest hlength
  obtain ⟨hline', hcolumn'⟩ := hother.exact hwhole hshort
  rw [hline', hcolumn', hline, hcolumn, List.count_append, Text.length_lastLine_append]
  have hfirst : 1 + before.count '\n' = 1 ↔ before.count '\n' = 0 := by omega
  simp only [hfirst]
  omega

theorem PointsAt.moved (h : span.PointsAt file rest before.length)
    (hother : other.PointsAt file (front ++ rest) (front ++ before).length)
    (hrest : before <+: rest) (hshort : (front ++ rest).length < Coord.limit) :
    span.MovedBy (front.count '\n') (lastLine front).length other := by
  obtain ⟨hline, hcolumn⟩ := h.toStartsAt.moved hother.toStartsAt hrest hshort
  refine ⟨hother.file.trans h.file.symm, hline, ?_, hcolumn, ?_⟩
  · rw [hother.endLine, h.endLine, hline]
  · rw [hother.endColumn, h.endColumn, h.endLine, hcolumn]

theorem Covers.moved (h : span.Covers file rest before.length (before ++ text).length)
    (hother : other.Covers file (front ++ rest) (front ++ before).length
      (front ++ before ++ text).length)
    (hrest : before ++ text <+: rest) (hline : '\n' ∉ text)
    (hshort : (front ++ rest).length < Coord.limit) :
    span.MovedBy (front.count '\n') (lastLine front).length other := by
  have hbefore : before <+: rest := (List.prefix_append before text).trans hrest
  have hwhole : front ++ before ++ text <+: front ++ rest := by
    rw [List.append_assoc]
    exact List.prefix_append_right_inj front |>.mpr hrest
  have hlength : rest.length < Coord.limit := by
    rw [List.length_append] at hshort
    omega
  obtain ⟨hstart, hcolumn⟩ := h.toStartsAt.moved hother.toStartsAt hbefore hshort
  refine ⟨hother.file.trans h.file.symm, hstart, ?_, hcolumn, ?_⟩
  · rw [hother.endLine, h.endLine, hstart]
  · have hstarts := (h.toStartsAt.exact hbefore hlength).2
    have hstarts' := (hother.toStartsAt.exact ((List.prefix_append _ text).trans hwhole) hshort).2
    rw [h.endLine, h.exact hrest hline hlength, hother.exact hwhole hline hshort]
    omega

end Span

-- ---------------------------------------------------------------------------
-- Moved tokens
-- ---------------------------------------------------------------------------

variable {pieces : List Piece}

theorem Piece.placed_append (before : List Char) (first second : List Piece) :
    placed before (first ++ second)
      = placed before first ++ placed (before ++ first.flatMap Piece.text) second := by
  induction first generalizing before with
  | nil => simp [placed]
  | cons piece first ih =>
    cases piece with
    | trivia text => simp [placed, ih, Piece.text]
    | lexeme unit => simp [placed, ih, Piece.text]

theorem Piece.placed_behind (front before : List Char) (pieces : List Piece) :
    placed (front ++ before) pieces
      = (placed before pieces).map fun place => (front ++ place.1, place.2) := by
  induction pieces generalizing before with
  | nil => rfl
  | cons piece pieces ih =>
    cases piece with
    | trivia text => rw [placed, placed, List.append_assoc, ih]
    | lexeme unit => rw [placed, placed, List.append_assoc, ih, List.map_cons]

theorem Token.moved_ofPlaced {place : List Char × Lexeme}
    (hplace : place.1 ++ place.2.text <+: rest) (hvalid : place.2.WellFormed)
    (hshort : (front ++ rest).length < Coord.limit) :
    (ofPlaced file place).Moved (Span.MovedBy (front.count '\n') (lastLine front).length)
      (ofPlaced file (front ++ place.1, place.2)) where
  kind := rfl
  lexeme := rfl
  span := by
    have hwhole : front ++ place.1 ++ place.2.text <+: front ++ rest := by
      rw [List.append_assoc]
      exact List.prefix_append_right_inj front |>.mpr hplace
    have hother : (ofPlaced file (front ++ place.1, place.2)).Occupies file (front ++ rest) _ :=
      occupies_ofPlaced hwhole hvalid
    exact (occupies_ofPlaced hplace hvalid).span.moved hother.span hplace
      hvalid.lineFeed_not_mem hshort

/-- The character behind `before`, alone and behind `front`. -/
theorem Span.point_moved (hbefore : before <+: rest)
    (hshort : (front ++ rest).length < Coord.limit) :
    (point file (Position.start.after before).line (Position.start.after before).column).MovedBy
      (front.count '\n') (lastLine front).length
      (point file (Position.start.after (front ++ before)).line
        (Position.start.after (front ++ before)).column) := by
  have hwhole : front ++ before <+: front ++ rest :=
    List.prefix_append_right_inj front |>.mpr hbefore
  exact (pointsAt_point hbefore).moved (pointsAt_point hwhole) hbefore hshort

/-- The pieces in front of a text are read as they are, and the text as if it were alone. -/
theorem Tiles.readBehind (file : Option String) {source alone : String}
    (h : Tiles source.toList pieces alone.toList) (hshort : source.toList.length < Coord.limit) :
    ReadBehind ((Piece.placed [] pieces).map (Token.ofPlaced file))
      (Span.MovedBy ((pieces.flatMap Piece.text).count '\n')
        (lastLine (pieces.flatMap Piece.text)).length)
      (tokenize file alone) (tokenize file source) := by
  have hsource : pieces.flatMap Piece.text ++ alone.toList = source.toList := h.flatMap_append
  rw [← hsource] at hshort
  cases houtcome : tokenize file alone with
  | ok tokens =>
    obtain ⟨later, hlater, rfl⟩ := tokenize_eq_ok_iff.mp houtcome
    have hwhole : tokenize file source = .ok _ :=
      tokenize_eq_ok_iff.mpr ⟨_, h.append hlater, rfl⟩
    rw [Piece.placed_append, List.nil_append, List.map_append, List.append_assoc] at hwhole
    rw [hwhole]
    refine .tokens (List.rel_append ?_ ?_)
    · have hplaced := Piece.placed_behind (pieces.flatMap Piece.text) [] later
      rw [List.append_nil] at hplaced
      rw [hplaced, List.map_map, List.forall₂_map_left_iff, List.forall₂_map_right_iff,
        List.forall₂_same]
      intro place hplace
      obtain ⟨hfront, hvalid⟩ := hlater.spec_of_mem_placed hplace
      exact Token.moved_ofPlaced hfront hvalid hshort
    · refine .cons ⟨rfl, rfl, ?_⟩ .nil
      rw [← hsource]
      exact Span.point_moved List.prefix_rfl hshort
  | error error =>
    obtain ⟨later, c, rest, stop, hlater, hread, rfl⟩ := tokenize_eq_error_iff.mp houtcome
    have hwhole : tokenize file source = .error _ :=
      tokenize_eq_error_iff.mpr ⟨_, c, rest, stop, h.append hlater, hread, rfl⟩
    rw [hwhole, List.flatMap_append, List.append_assoc]
    refine .error ⟨rfl, Span.point_moved ?_ hshort⟩
    obtain ⟨remaining, hsplit, -⟩ := Piece.breaks_of_read hread
    exact ⟨remaining, by rw [List.append_assoc, ← hsplit, hlater.flatMap_append]⟩

end KlangFront
