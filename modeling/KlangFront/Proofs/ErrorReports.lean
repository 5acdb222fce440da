import KlangFront.Proofs.BrokenPieces
import KlangFront.Proofs.Excerpts
import KlangFront.Proofs.ShownLines
import KlangFront.Proofs.TokenSpans

/-!
# Reports of lexical errors

The report of a lexical error is a header, the place, the line of the source with a
mark below the offending character, and one note. `LexicalError.rows` writes these
rows down, without the line where there is none, and `LexicalError.report_eq` says
that a report is made of them.

`tokenize_report` is the agreement of scanning and showing: the line that the
reader finds by the reported number is the one that the scan counted, and it is
missing only behind an open comment at the end of the source.
-/

namespace KlangFront

open Text (lastLine)

/-- The rows of a report about a named source, given the line that is shown. -/
def LexicalError.rows (error : LexicalError) (name : String) (shown : Option (List Char)) :
    List String :=
  let line := error.span.startLine.text
  let column := error.span.startColumn
  let margin := " " ++ line ++ " | "
  ["LEXICAL: " ++ error.fault.message, "  --> " ++ name ++ ":" ++ line ++ ":" ++ column.text]
    ++ (match shown with
      | some characters => [margin ++ String.ofList characters,
          String.ofList (List.replicate (margin.length + column.toNat - 1) ' ') ++ "^"]
      | none => [])
    ++ ["  > note: " ++ error.fault.remedy]

-- ---------------------------------------------------------------------------
-- Layout
-- ---------------------------------------------------------------------------

theorem Span.display_of_endLine {span : Span} {name : String} (hfile : span.file = some name)
    (hline : span.endLine = span.startLine) :
    span.display = name ++ ":" ++ span.startLine.text ++ ":" ++ span.startColumn.text := by
  simp [display, isSingleLine, hfile, hline]

namespace LexicalError

theorem length_rows (error : LexicalError) (name : String) (shown : Option (List Char)) :
    (error.rows name shown).length = if shown = none then 3 else 5 := by
  cases shown <;> rfl

variable {m : Type → Type} [Monad m] [LawfulMonad m] {read : String → m (Option String)}
  {act : m Unit} {name source : String} {error : LexicalError} {text : List Char} {offset : Nat}

/-- The rows are the report's own lines, with the excerpt of the source in its place. -/
theorem rows_eq (h : error.span.PointsAt (some name) text offset)
    (shown : Option (List Char)) :
    error.rows name shown
      = ["LEXICAL: " ++ error.fault.message, "  --> " ++ error.span.display]
        ++ shown.elim [] (Report.excerptLines error.span) ++ ["  > note: " ++ error.fault.remedy] := by
  have hdisplay := Span.display_of_endLine h.file h.endLine
  have hwidth : error.span.markedColumns = 1 := by
    simp [Span.markedColumns, h.endLine, h.endColumn]
  cases shown <;> simp [rows, Report.excerptLines, hdisplay, hwidth, String.append_assoc]

/-- The report of an error in a source that the reader has. -/
theorem report_eq (hread : read name = do act; return some source)
    (h : error.span.PointsAt (some name) text offset) :
    error.toDiagnostic.report read .plain = do
      act
      return String.join ((error.rows name
        (Text.line? source.toList error.span.startLine.toNat)).map (· ++ "\n")) := by
  have hline : Report.sourceLine read true (some error.span) = do
      act
      return Text.line? source.toList error.span.startLine.toNat := by
    simp [Report.sourceLine, Report.shownLine?, Span.firstLine?, h.file, Report.lineOf, hread]
  have houtline : error.toDiagnostic.outline = [.line ("LEXICAL: " ++ error.fault.message),
      .line ("  --> " ++ error.span.display), .excerpt error.span,
      .line ("  > note: " ++ error.fault.remedy)] := rfl
  rw [Diagnostic.report_plain, houtline]
  simp [Report.Part.lines, hline, rows_eq h]

end LexicalError

-- ---------------------------------------------------------------------------
-- Rows without line feeds
-- ---------------------------------------------------------------------------

theorem Fault.LocatedAt.lineFeed_not_mem_message {text : List Char} {offset : Nat} {fault : Fault}
    (h : fault.LocatedAt text offset) : '\n' ∉ fault.message.toList := by
  unfold message
  cases fault with
  | strayCharacter c =>
    obtain ⟨-, hspace, -⟩ := h
    have hfeed : c ≠ '\n' := by rintro rfl; cases hspace
    simp [Char.toString, hfeed.symm]
  | badEscape quoted c =>
    obtain ⟨-, -, hfeed, -⟩ := h
    simp [Char.toString, hfeed.symm]
  | lineBreak quoted | unterminated quoted => cases quoted <;> simp
  | _ => simp

theorem Fault.lineFeed_not_mem_remedy (fault : Fault) : '\n' ∉ fault.remedy.toList := by
  cases fault with
  | badEscape quoted _ | lineBreak quoted | unterminated quoted => cases quoted <;> simp [remedy]
  | _ => simp [remedy]

theorem LexicalError.lineFeed_not_mem_rows {error : LexicalError} {name : String}
    {shown : Option (List Char)} (hname : '\n' ∉ name.toList)
    (hmessage : '\n' ∉ error.fault.message.toList) (hshown : ∀ line ∈ shown, '\n' ∉ line) :
    ∀ row ∈ error.rows name shown, '\n' ∉ row.toList := by
  have hline : '\n' ∉ error.span.startLine.text.toList := Coord.not_mem_text (by decide)
  have hcolumn : '\n' ∉ error.span.startColumn.text.toList := Coord.not_mem_text (by decide)
  have hremedy := error.fault.lineFeed_not_mem_remedy
  cases shown with
  | none => simp [rows, *]
  | some line => simp [rows, *]

-- ---------------------------------------------------------------------------
-- The line that is shown
-- ---------------------------------------------------------------------------

theorem Stop.Breaks.eq_nil_of_openComment {stop : Stop} {rest : List Char}
    (h : stop.Breaks rest) (hcomment : stop.fault = .openComment) : rest = [] := by
  cases h with
  | openComment => rfl
  | _ => cases hcomment

/-- Nothing breaks off at the end of a text before it has begun. -/
theorem Stop.Breaks.passed_ne_nil_of_end {stop : Stop} (h : stop.Breaks []) :
    stop.passed ≠ [] := by
  cases h <;> exact List.cons_ne_nil _ _

theorem BreaksOff.line?_eq_none_iff {text rest : List Char} {pieces : List Piece} {stop : Stop}
    (h : BreaksOff text pieces stop rest) :
    Text.line? text (1 + (pieces.flatMap Piece.text ++ stop.passed).count '\n') = none ↔
      stop.fault = .openComment ∧ text.getLast? = some '\n' := by
  nth_rewrite 1 [← h.append]
  rw [Text.line?_eq_none_iff]
  constructor
  · rintro ⟨hlast, rfl⟩
    have hpassed := h.breaks.passed_ne_nil_of_end
    by_cases hcomment : stop.fault = .openComment
    · refine ⟨hcomment, ?_⟩
      rw [← h.append, List.append_nil]
      exact (Text.lastLine_eq_nil_iff (by simp [hpassed])).mp hlast
    · rw [Text.lastLine_append (h.breaks.lineFeed_not_mem_passed hcomment)] at hlast
      exact absurd (List.append_eq_nil_iff.mp hlast).2 hpassed
  · rintro ⟨hcomment, hlast⟩
    obtain rfl := h.breaks.eq_nil_of_openComment hcomment
    rw [← h.append, List.append_nil] at hlast
    exact ⟨(Text.lastLine_eq_nil_iff (by simp [h.breaks.passed_ne_nil_of_end])).mpr hlast, rfl⟩

-- ---------------------------------------------------------------------------
-- The report of a source
-- ---------------------------------------------------------------------------

theorem tokenize_report {m : Type → Type} [Monad m] [LawfulMonad m]
    {read : String → m (Option String)} {act : m Unit} {name source : String}
    {error : LexicalError} (hname : name ≠ "") (hfeed : '\n' ∉ name.toList)
    (hread : read name = do act; return some source)
    (hshort : source.toList.length < Coord.limit)
    (h : tokenize (fileNamed name) source = .error error) :
    ∃ offset, Scan.offence? source.toList = some offset ∧
      error.span.PointsAt (some name) source.toList offset ∧
      let shown := Text.line? source.toList error.span.startLine.toNat
      error.toDiagnostic.report read .plain = (do
        act
        return String.join ((error.rows name shown).map (· ++ "\n"))) ∧
      (∀ row ∈ error.rows name shown, '\n' ∉ row.toList) ∧
      (error.rows name shown).length = (if shown = none then 3 else 5) ∧
      (shown = none ↔ error.fault = .openComment ∧ source.toList.getLast? = some '\n') ∧
      ∀ line ∈ shown, Text.Shows source.toList offset line error.span.startColumn.toNat := by
  have hfile : fileNamed name = some name := if_neg hname
  rw [hfile] at h
  obtain ⟨pieces, stop, rest, hbroken, rfl⟩ := tokenize_eq_breaksOff_iff.mp h
  have hsource := hbroken.append
  have hfront : pieces.flatMap Piece.text ++ stop.passed <+: source.toList :=
    hsource ▸ List.prefix_append _ rest
  have hpoints : (Span.point (some name) _ _).PointsAt (some name) source.toList _ :=
    Span.pointsAt_point hfront
  obtain ⟨hline, hcolumn⟩ := hpoints.toStartsAt.exact hfront hshort
  have hlocated := hbroken.breaks.locatedAt (pieces.flatMap Piece.text)
  refine ⟨_, hbroken.offence, hpoints, LexicalError.report_eq hread hpoints, ?_,
    LexicalError.length_rows _ _ _, ?_, ?_⟩
  · refine LexicalError.lineFeed_not_mem_rows hfeed hlocated.lineFeed_not_mem_message ?_
    exact fun line hshown => Text.lineFeed_not_mem_of_line? hshown
  · rw [hline]
    exact hbroken.line?_eq_none_iff
  · intro line hshown
    rw [hline, ← hsource] at hshown
    rw [hcolumn, ← hsource]
    exact Text.shows_of_line? hshown

/-- A character literal that goes on to the carriage return of its line, which is not shown. -/
theorem tokenize_report_carriageReturn :
    let source := "x = 'a\r\n"
    let error : LexicalError :=
      ⟨.crowdedCharacter, .point (some "m.k") (Position.line ⟨0, 6⟩) (Position.column ⟨0, 6⟩)⟩
    tokenize (fileNamed "m.k") source = .error error ∧
      error.toDiagnostic.report (Report.recording fun _ => some source) .plain = (do
        modify (· ++ ["m.k"])
        return String.join ((error.rows "m.k" (some "x = 'a".toList)).map (· ++ "\n"))) ∧
      Text.Shows source.toList 6 "x = 'a".toList 7 := by
  intro source error
  have hread : Report.recording (fun _ => some source) "m.k" = (do
    modify (· ++ ["m.k"])
    return some source) := rfl
  have hshort : source.toList.length < Coord.limit := by decide +kernel
  have h : tokenize (fileNamed "m.k") source = .error error := by decide +kernel
  obtain ⟨offset, hoffset, -, hreport, -, -, -, hshows⟩ :=
    tokenize_report (by decide) (by decide) hread hshort h
  have hshown : Text.line? source.toList error.span.startLine.toNat = some "x = 'a".toList := by
    decide +kernel
  have hoffence : Scan.offence? source.toList = some 6 := by decide +kernel
  obtain rfl : offset = 6 := Option.some.inj (hoffset.symm.trans hoffence)
  rw [hshown] at hreport hshows
  exact ⟨h, hreport, hshows _ rfl⟩

end KlangFront
