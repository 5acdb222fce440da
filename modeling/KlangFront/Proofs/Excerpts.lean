import KlangFront.Proofs.ReportReads
import KlangFront.Proofs.Places

/-!
# Source excerpts of a report

A report without color is a list of lines. `Diagnostic.outline` says which of them are
its own and at which places an excerpt of the source follows, and
`Diagnostic.report_plain` that the report is its outline with the excerpts filled in. So an
excerpt that cannot be had leaves no other trace.

An excerpt is two lines, the source line behind its number and the carets below it
(`Report.excerptLines`). The carets stand below the columns of the span, however many
digits the number has and whatever the line holds (`Report.aboveCarets_excerptLines`).
-/

namespace KlangFront

/-- How many columns of its first line a span marks: all its columns if it stays on this
line, and otherwise the one where it starts. -/
def Span.markedColumns (span : Span) : Nat :=
  if span.startLine = span.endLine then span.endColumn.toNat - span.startColumn.toNat + 1 else 1

namespace Report

/-- The two lines of an excerpt: a source line behind its number, and carets below it. -/
def excerptLines (span : Span) (line : List Char) : List String :=
  let margin := " " ++ span.startLine.text ++ " | "
  let indent := margin.length + span.startColumn.toNat - 1
  [margin ++ String.ofList line,
   String.ofList (List.replicate indent ' ' ++ List.replicate span.markedColumns '^')]

/-- A part of a report: a line of its own, or the excerpt of the source at a place. -/
inductive Part
  | line (text : String)
  | excerpt (span : Span)

section Parts

variable {m : Type → Type} [Monad m] (read : String → m (Option String))

/-- The lines of a part. An excerpt has none where the source line cannot be had. -/
def Part.lines : Part → m (List String)
  | line text => return [text]
  | excerpt span => do
    let source ← sourceLine read true (some span)
    return source.elim [] (excerptLines span)

def partLines (parts : List Part) : m (List String) := List.flatten <$> parts.mapM (Part.lines read)

end Parts

def placeParts (indent : String) (span : Option Span) : List Part :=
  span.toList.flatMap fun span => [.line (indent ++ "--> " ++ span.display), .excerpt span]

def noteParts (note : Note) : List Part :=
  .line ("  > note: " ++ note.message) :: placeParts "    " note.span

end Report

/-- The parts of a report that shows all places, in its order. -/
def Diagnostic.outline (d : Diagnostic) : List Report.Part :=
  .line (d.severity.label ++ ": " ++ d.message) :: Report.placeParts "  " d.primary
    ++ d.secondary.map (fun span => .line ("  ::: referenced at " ++ span.display))
    ++ d.notes.flatMap Report.noteParts

namespace Report

-- ---------------------------------------------------------------------------
-- Rows without color
-- ---------------------------------------------------------------------------

theorem markWidth_eq (span : Span) : markWidth span = span.markedColumns := by
  unfold markWidth Span.markedColumns Span.length? Span.isSingleLine
  by_cases hsingle : span.startLine = span.endLine
  · simp [hsingle, Coord.toNat_width (span.columns_ordered hsingle)]
  · simp [hsingle]

theorem paint_plain (row : Row) : row.paint false = String.join (row.map Run.text) := by
  have hplain : Run.paint false = Run.text := funext fun run => by simp [Run.paint]
  rw [Row.paint, hplain]

theorem paint_header (d : Diagnostic) :
    (header d).paint false = d.severity.label ++ ": " ++ d.message := by
  rw [paint_plain, ← String.toList_inj]
  simp [header]

theorem paint_arrow (indent : String) (span : Span) :
    (arrow indent span).paint false = indent ++ "--> " ++ span.display := by
  rw [paint_plain, ← String.toList_inj]
  simp [arrow]

theorem paint_reference (span : Span) :
    (reference span).paint false = "  ::: referenced at " ++ span.display := by
  rw [paint_plain, ← String.toList_inj]
  simp [reference]

theorem paint_noteLine (note : Note) :
    (noteLine note).paint false = "  > note: " ++ note.message := by
  rw [paint_plain, ← String.toList_inj]
  simp [noteLine]

theorem paint_excerpt (span : Span) (style : Style) (line : List Char) :
    (excerpt span style line).map (Row.paint false) = excerptLines span line := by
  simp [paint_plain, excerpt, excerptLines, gutter, markWidth_eq]

theorem text_plain (rows : List Row) :
    text false rows = String.join ((rows.map (Row.paint false)).map (· ++ "\n")) := by
  rw [text, List.map_map]
  rfl

-- ---------------------------------------------------------------------------
-- Outlines
-- ---------------------------------------------------------------------------

section Outline

variable {m : Type → Type} [Monad m] [LawfulMonad m] (read : String → m (Option String))

@[simp] theorem partLines_nil : partLines read [] = pure [] := by
  simp [partLines]

@[simp] theorem partLines_cons (part : Part) (parts : List Part) :
    partLines read (part :: parts) = do
      let first ← part.lines read
      let later ← partLines read parts
      return first ++ later := by
  simp [partLines]

theorem partLines_append (parts others : List Part) :
    partLines read (parts ++ others) = do
      let first ← partLines read parts
      let later ← partLines read others
      return first ++ later := by
  simp [partLines]

theorem partLines_map_line (spans : List Span) (text : Span → String) :
    partLines read (spans.map fun span => .line (text span)) = pure (spans.map text) := by
  induction spans with
  | nil => simp
  | cons span spans ih => simp [ih, Part.lines]

theorem location?_plain (indent : String) (style : Style) (span : Option Span) :
    List.map (Row.paint false) <$> location? read true indent style span
      = partLines read (placeParts indent span) := by
  rw [location?_eq]
  cases span with
  | none => simp [placeParts, sourceLine, shownLine?, placeRows]
  | some span =>
    simp only [placeParts, placeRows, Option.toList_some, List.flatMap_cons, List.flatMap_nil,
      List.append_nil, partLines_cons, partLines_nil, Part.lines, bind_assoc, pure_bind,
      Functor.map_map, if_true, List.map_cons, paint_arrow]
    rw [map_eq_pure_bind]
    refine bind_congr fun line => ?_
    cases line with
    | none => simp
    | some line => simp [paint_excerpt]

theorem note_plain (aNote : Note) :
    List.map (Row.paint false) <$> note read true aNote = partLines read (noteParts aNote) := by
  rw [noteParts, partLines_cons, ← location?_plain read "    " .info aNote.span]
  simp [note, Part.lines, paint_noteLine]

theorem notes_plain (notes : List Note) :
    (fun rows => rows.flatten.map (Row.paint false)) <$> notes.mapM (note read true)
      = partLines read (notes.flatMap noteParts) := by
  induction notes with
  | nil => simp
  | cons aNote notes ih =>
    rw [List.flatMap_cons, partLines_append, ← note_plain, ← ih]
    simp

/-- A report without color is its outline, with the excerpts filled in. -/
theorem rows_plain (d : Diagnostic) :
    List.map (Row.paint false) <$> rows read true d = partLines read d.outline := by
  have hreferences : (d.secondary.map reference).map (Row.paint false)
      = d.secondary.map fun span => "  ::: referenced at " ++ span.display := by
    simp [paint_reference]
  rw [Diagnostic.outline, partLines_append, partLines_append, partLines_cons, partLines_map_line,
    ← location?_plain read "  " d.severity.style d.primary, ← notes_plain, ← hreferences]
  simp [rows, Part.lines, paint_header]

end Outline

-- ---------------------------------------------------------------------------
-- Alignment
-- ---------------------------------------------------------------------------

/-- The characters of a line that stand directly above the carets of the line below it. -/
def aboveCarets (above below : String) : List Char :=
  ((above.toList.zip below.toList).filter (·.2 = '^')).map Prod.fst

theorem aboveCarets_append (before line : List Char) (width : Nat) :
    aboveCarets (String.ofList (before ++ line))
      (String.ofList (List.replicate before.length ' ' ++ List.replicate width '^'))
      = line.take width := by
  simp only [aboveCarets, String.toList_ofList]
  induction before with
  | nil =>
    induction line generalizing width with
    | nil => simp
    | cons c line ih =>
      cases width with
      | zero => simp
      | succ width => simpa [List.replicate_succ] using ih width
  | cons c before ih => simpa [List.replicate_succ] using ih

/-- The carets of a span on one line stand below its columns, as far as the line has them. -/
theorem aboveCarets_excerptLines {span : Span} {line : List Char}
    (hsingle : span.startLine = span.endLine) (hwithin : span.endColumn.toNat ≤ line.length) :
    ∃ above below, excerptLines span line = [above, below] ∧ aboveCarets above below
      = (line.take span.endColumn.toNat).drop (span.startColumn.toNat - 1) := by
  refine ⟨_, _, rfl, ?_⟩
  have hstart := span.startColumn.one_le_toNat
  have horder := Coord.le_iff_toNat_le.mp (span.columns_ordered hsingle)
  -- everything to the left of the first column has a space below it
  let before := (" " ++ span.startLine.text ++ " | ").toList
    ++ line.take (span.startColumn.toNat - 1)
  have hbefore : before.length
      = (" " ++ span.startLine.text ++ " | ").length + span.startColumn.toNat - 1 := by
    rw [List.length_append, String.length_toList, List.length_take, Nat.min_eq_left (by omega)]
    omega
  have habove : " " ++ span.startLine.text ++ " | " ++ String.ofList line
      = String.ofList (before ++ line.drop (span.startColumn.toNat - 1)) := by
    rw [← String.toList_inj]
    simp [before]
  have hwidth : span.markedColumns = span.endColumn.toNat - (span.startColumn.toNat - 1) := by
    rw [Span.markedColumns, if_pos hsingle]
    omega
  rw [habove, ← hbefore, aboveCarets_append, hwidth, List.drop_take]

theorem utf8ByteSize_ofList_of_single {text : List Char} (h : ∀ c ∈ text, c.utf8Size = 1) :
    (String.ofList text).utf8ByteSize = text.length := by
  induction text with
  | nil => rfl
  | cons c text ih =>
    obtain ⟨hc, htext⟩ := List.forall_mem_cons.mp h
    rw [String.ofList_cons, String.utf8ByteSize_append, String.utf8ByteSize_singleton, hc, ih htext,
      List.length_cons, Nat.add_comm]

/-- The margin of an excerpt has as many characters as bytes. -/
theorem utf8ByteSize_gutter (line : Coord) : (gutter line).utf8ByteSize = (gutter line).length := by
  have hdigit {c : Char} (hc : c.isDigit) : c.utf8Size = 1 := by
    simp only [Char.isDigit, Bool.and_eq_true, decide_eq_true_eq] at hc
    exact Char.utf8Size_eq_one_iff.mpr (UInt32.le_trans hc.2 (by decide))
  have hsingle : ∀ c ∈ (gutter line).toList, c.utf8Size = 1 := by
    intro c hc
    simp only [gutter, String.toList_append, List.mem_append] at hc
    rcases hc with (hblank | hnumber) | hbar
    · obtain rfl : c = ' ' := by simpa using hblank
      rfl
    · exact hdigit (Coord.isDigit_of_mem_text hnumber)
    · have hbar : c = ' ' ∨ c = '|' ∨ c = ' ' := by simpa using hbar
      rcases hbar with rfl | rfl | rfl <;> rfl
  have hsize := utf8ByteSize_ofList_of_single hsingle
  rwa [String.ofList_toList, String.length_toList] at hsize

theorem lineFeed_not_mem_excerptLines {span : Span} {line : List Char} (h : '\n' ∉ line) :
    ∀ row ∈ excerptLines span line, '\n' ∉ row.toList := by
  have hnumber : '\n' ∉ span.startLine.text.toList := Coord.not_mem_text (by decide)
  simp [excerptLines, hnumber, h]

end Report

-- ---------------------------------------------------------------------------
-- Reports with their excerpts
-- ---------------------------------------------------------------------------

theorem Diagnostic.report_plain {m : Type → Type} [Monad m] [LawfulMonad m]
    (read : String → m (Option String)) (d : Diagnostic) :
    d.report read .plain
      = (fun lines => String.join (lines.map (· ++ "\n"))) <$> Report.partLines read d.outline := by
  simp only [report, ReportOptions.plain, bind_pure_comp, ← Report.rows_plain, Functor.map_map,
    Report.text_plain]

/-- A report without color is its outline, and each place of the outline has an excerpt of
two lines, or nothing where the source line cannot be had. The carets of an excerpt stand
below the columns of its span, and their indent, counted in bytes or in characters, is the
same. -/
theorem Diagnostic.report_excerpts {m : Type → Type} [Monad m] [LawfulMonad m]
    (read : String → m (Option String)) (d : Diagnostic) :
    d.report read .plain
      = (fun lines => String.join (lines.map (· ++ "\n"))) <$> Report.partLines read d.outline ∧
    (∀ (span : Span) (file : String) (act : m Unit) (source : Option String),
      span.file = some file → read file = (do act; return source) →
      Report.Part.lines read (.excerpt span) = do
        act
        return match source.bind fun text => Text.line? text.toList span.startLine.toNat with
          | some line => Report.excerptLines span line
          | none => []) ∧
    (∀ coord, (Report.gutter coord).utf8ByteSize = (Report.gutter coord).length) ∧
    ∀ (span : Span) (text line : List Char), Text.line? text span.startLine.toNat = some line →
      (∀ row ∈ Report.excerptLines span line, '\n' ∉ row.toList) ∧
      (span.startLine = span.endLine → span.endColumn.toNat ≤ line.length →
        ∃ above below, Report.excerptLines span line = [above, below] ∧
          Report.aboveCarets above below
            = (line.take span.endColumn.toNat).drop (span.startColumn.toNat - 1)) := by
  refine ⟨d.report_plain read, ?_, Report.utf8ByteSize_gutter, ?_⟩
  · intro span file act source hfile hread
    simp only [Report.Part.lines, Report.sourceLine, Report.shownLine?, Span.firstLine?, hfile,
      Option.map_some, Option.bind_some, if_true, Report.lineOf, hread, bind_assoc, pure_bind]
    refine bind_congr fun _ => ?_
    cases source.bind fun text => Text.line? text.toList span.startLine.toNat <;> rfl
  · intro span text line hline
    have hfeed := Text.lineFeed_not_mem_of_line? hline
    exact ⟨Report.lineFeed_not_mem_excerptLines hfeed, Report.aboveCarets_excerptLines⟩

/-- A line with a number of two digits, whose letters take two bytes, and a file that is not
there. -/
theorem Diagnostic.report_excerpts_wideMargin :
    let source := "\n\n\n\n\n\n\n\n\n\n\nαβγδε\r\n"
    let texts (file : String) : Option String := if file = "a.k" then some source else none
    let span : Span := .onLine (some "a.k") (.clamp 12) (.clamp 3) (.clamp 5)
    let gone : Span := .point (some "b.k") (.clamp 1) (.clamp 1)
    let line := "αβγδε".toList
    Text.line? source.toList span.startLine.toNat = some line ∧
      Report.Part.lines (m := Id) texts (.excerpt span) = Report.excerptLines span line ∧
      Report.Part.lines (m := Id) texts (.excerpt gone) = [] ∧
      ∃ above below, Report.excerptLines span line = [above, below] ∧
        Report.aboveCarets above below = ['γ', 'δ', 'ε'] := by
  intro source texts span gone line
  have hline : Text.line? source.toList span.startLine.toNat = some line := by decide +kernel
  obtain ⟨-, hlines, -, hcarets⟩ := report_excerpts (m := Id) texts declaredTwice
  have hshown := hlines span "a.k" () (some source) rfl rfl
  have hhidden := hlines gone "b.k" () none rfl rfl
  obtain ⟨above, below, hexcerpt, habove⟩ :=
    (hcarets span source.toList line hline).2 (by decide +kernel) (by decide +kernel)
  refine ⟨hline, hshown.trans ?_, hhidden, above, below, hexcerpt, habove.trans (by decide +kernel)⟩
  rw [Option.bind_some, hline]
  rfl

end KlangFront
