import KlangFront.Proofs.EscapeSequences
import KlangFront.Proofs.ReportReads

/-!
# Colors of a report

Color is painted on the rows of a report when they are laid out already. A run with a
style has no line end in it, so each style is turned off on the line on which it was
turned on (`Run.Paintable.painted`). The colored report is then the plain one with
escape sequences in it, as long as the texts that are shown bring none along:
`Diagnostic.report_color`.
-/

namespace KlangFront

open Escape (Painted)

/-- A diagnostic whose texts have no escape character in them. -/
structure Diagnostic.Unescaped (diagnostic : Diagnostic) : Prop where
  message : '\x1b' ∉ diagnostic.message.toList
  notes : ∀ note ∈ diagnostic.notes, '\x1b' ∉ note.message.toList
  files : ∀ span ∈ diagnostic.primary.toList ++ diagnostic.secondary
      ++ diagnostic.notes.filterMap Note.span,
    ∀ file ∈ span.file, '\x1b' ∉ file.toList

-- ---------------------------------------------------------------------------
-- Painting
-- ---------------------------------------------------------------------------

/-- A run that may be painted: it has no escape character of its own, and a style of it
ends on the line where it starts. -/
def Run.Paintable (run : Run) : Prop :=
  '\x1b' ∉ run.text.toList ∧ (run.styles ≠ [] → '\n' ∉ run.text.toList)

theorem Run.Paintable.painted {run : Run} (h : run.Paintable) :
    Painted false (run.paint true).toList (run.paint false).toList := by
  obtain ⟨text, styles⟩ := run
  obtain ⟨hescape, hfeed⟩ := h
  cases styles with
  | nil =>
    have htext : Painted false (text.toList ++ []) (text.toList ++ []) :=
      .chars hescape nofun .nil
    simpa [Run.paint] using htext
  | cons first styles =>
    have htext : Painted true (text.toList ++ Style.reset.toList) text.toList := by
      simpa using Painted.chars hescape (fun _ => hfeed (List.cons_ne_nil _ _)) (.reset .nil)
    simpa [Run.paint] using Painted.style (Escape.isSequence_sequence first) (htext.styles styles)

def Row.Paintable (row : Row) : Prop := ∀ run ∈ row, run.Paintable

theorem Row.Paintable.painted {row : Row} (h : row.Paintable) :
    Painted false (row.paint true).toList (row.paint false).toList := by
  induction row with
  | nil => exact .nil
  | cons run row ih =>
    have hrun := (h run List.mem_cons_self).painted
    have hrow := ih fun other hother => h other (List.mem_cons_of_mem run hother)
    simpa [Row.paint] using hrun.append hrow

theorem Report.painted_text {rows : List Row} (h : ∀ row ∈ rows, row.Paintable) :
    Painted false (Report.text true rows).toList (Report.text false rows).toList := by
  induction rows with
  | nil => exact .nil
  | cons row rows ih =>
    have hrow := (h row List.mem_cons_self).painted
    have hrows := ih fun other hother => h other (List.mem_cons_of_mem row hother)
    have hrest : Painted false ('\n' :: (Report.text true rows).toList)
        ('\n' :: (Report.text false rows).toList) := .char (by decide) nofun hrows
    simpa [Report.text] using hrow.append hrest

-- ---------------------------------------------------------------------------
-- The rows of a report
-- ---------------------------------------------------------------------------

@[simp]
theorem Run.paintable_mk {text : String} {styles : List Style} :
    Run.Paintable ⟨text, styles⟩ ↔
      '\x1b' ∉ text.toList ∧ (styles ≠ [] → '\n' ∉ text.toList) := .rfl

@[simp]
theorem Row.paintable_nil : Row.Paintable [] := nofun

@[simp]
theorem Row.paintable_cons {run : Run} {row : Row} :
    Row.Paintable (run :: row) ↔ run.Paintable ∧ row.Paintable := List.forall_mem_cons

/-- Digits are neither escape characters nor line ends. -/
theorem Coord.paintable_text (coord : Coord) (styles : List Style) :
    Run.Paintable ⟨coord.text, styles⟩ :=
  ⟨not_mem_text (by decide), fun _ => not_mem_text (by decide)⟩

theorem Span.escape_not_mem_display {span : Span}
    (h : ∀ file ∈ span.file, '\x1b' ∉ file.toList) : '\x1b' ∉ span.display.toList := by
  have hcoord (coord : Coord) : '\x1b' ∉ coord.text.toList := (coord.paintable_text []).1
  unfold display
  split <;> simp_all

theorem Severity.paintable_label (severity : Severity) (styles : List Style) :
    Run.Paintable ⟨severity.label, styles⟩ := by
  cases severity <;> simp [label]

namespace Report

theorem paintable_header {d : Diagnostic} (h : '\x1b' ∉ d.message.toList) :
    (header d).Paintable := by
  have hlabel := d.severity.paintable_label [.bold, d.severity.style]
  simp_all [header]

theorem paintable_excerpt (span : Span) (style : Style) {line : List Char} (h : '\x1b' ∉ line) :
    ∀ row ∈ excerpt span style line, row.Paintable := by
  have hcoord := span.startLine.paintable_text [.muted]
  simp_all [excerpt, gutter]

theorem paintable_arrow {span : Span} (indent : String) (hindent : '\x1b' ∉ indent.toList)
    (h : ∀ file ∈ span.file, '\x1b' ∉ file.toList) : (arrow indent span).Paintable := by
  simp [arrow, hindent, span.escape_not_mem_display h]

theorem paintable_reference {span : Span} (h : ∀ file ∈ span.file, '\x1b' ∉ file.toList) :
    (reference span).Paintable := by
  simp [reference, span.escape_not_mem_display h]

theorem paintable_noteLine {note : Note} (h : '\x1b' ∉ note.message.toList) :
    (noteLine note).Paintable := by
  simp [noteLine, h]

theorem paintable_placeRows {indent : String} {span : Option Span} {line : Option (List Char)}
    (locations : Bool) (style : Style) (hindent : '\x1b' ∉ indent.toList)
    (hfile : ∀ place ∈ span, ∀ file ∈ place.file, '\x1b' ∉ file.toList)
    (hline : ∀ shown ∈ line, '\x1b' ∉ shown) :
    ∀ row ∈ placeRows locations indent style span line, row.Paintable := by
  cases span with
  | none => simp [placeRows]
  | some place =>
    cases locations with
    | false => simp [placeRows]
    | true =>
      have harrow := paintable_arrow indent hindent (hfile place rfl)
      cases line with
      | none => simpa [placeRows] using harrow
      | some shown =>
        simp only [placeRows, if_true, Option.elim_some, List.forall_mem_cons]
        exact ⟨harrow, paintable_excerpt place style (hline shown rfl)⟩

theorem paintable_layout {d : Diagnostic} {line : Option (List Char)}
    {noteLines : List (Option (List Char))} (locations : Bool) (hd : d.Unescaped)
    (hline : ∀ shown ∈ line, '\x1b' ∉ shown)
    (hnotes : ∀ noteLine ∈ noteLines, ∀ shown ∈ noteLine, '\x1b' ∉ shown) :
    ∀ row ∈ layout locations d line noteLines, row.Paintable := by
  simp only [layout, List.cons_append, List.forall_mem_cons, List.forall_mem_append,
    List.forall_mem_map, List.forall_mem_flatten]
  have hfile {span : Span} (hspan : span ∈ d.primary.toList ∨ span ∈ d.secondary ∨
      ∃ note ∈ d.notes, note.span = some span) : ∀ file ∈ span.file, '\x1b' ∉ file.toList :=
    hd.files span (by simpa [or_assoc] using hspan)
  refine ⟨paintable_header hd.message, ⟨?_, ?_⟩, ?_⟩
  · exact paintable_placeRows locations _ (by decide)
      (fun place hplace => hfile (.inl (by simpa using hplace))) hline
  · exact fun span hspan => paintable_reference (hfile (.inr (.inl hspan)))
  · intro rows hrows
    rw [← List.map_uncurry_zip_eq_zipWith, List.mem_map] at hrows
    obtain ⟨⟨note, shown⟩, hzip, rfl⟩ := hrows
    obtain ⟨hnote, hshown⟩ := List.of_mem_zip hzip
    simp only [Function.uncurry_apply_pair, noteRows, List.forall_mem_cons]
    exact ⟨paintable_noteLine (hd.notes note hnote),
      paintable_placeRows locations _ (by decide)
        (fun place hplace => hfile (.inr (.inr ⟨note, hnote, hplace⟩))) (hnotes shown hshown)⟩

end Report

/-- A report asks its reader the same questions with color as without it. Whatever lines
it is given, the colored text is the plain one with escape sequences in it, which leave no
style on at the end of a line, unless escape characters are shown. -/
theorem Diagnostic.report_color {m : Type → Type} [Monad m] [LawfulMonad m]
    (read : String → m (Option String)) (locations : Bool) {d : Diagnostic} (hd : d.Unescaped) :
    (∀ color, d.report read ⟨color, locations⟩ = do
      let line ← Report.sourceLine read locations d.primary
      let noteLines ← d.notes.mapM fun note => Report.sourceLine read locations note.span
      return Report.text color (Report.layout locations d line noteLines))
    ∧ ∀ line noteLines, (∀ answer ∈ line :: noteLines, ∀ shown ∈ answer, '\x1b' ∉ shown) →
      let colored := (Report.text true (Report.layout locations d line noteLines)).toList
      let plain := (Report.text false (Report.layout locations d line noteLines)).toList
      Escape.stripped colored = plain ∧ '\x1b' ∉ plain ∧ Escape.Closed colored := by
  constructor
  · intro color
    simp [Diagnostic.report, Report.rows_eq]
  · intro line noteLines hlines
    rw [List.forall_mem_cons] at hlines
    have hpainted := Report.painted_text (Report.paintable_layout locations hd hlines.1 hlines.2)
    exact ⟨hpainted.stripped_eq, hpainted.escape_not_mem, hpainted.closed⟩

/-- A report with one line of a file; the file of its note is not there. -/
theorem Diagnostic.declaredTwice_report_color :
    let texts (file : String) : Option String :=
      if file = "use.k" then some "import lib\ninteger x\n" else none
    let report (color : Bool) : String := declaredTwice.report (m := Id) texts ⟨color, true⟩
    declaredTwice.Unescaped ∧ '\x1b' ∈ (report true).toList ∧ '\x1b' ∉ (report false).toList ∧
      Escape.stripped (report true).toList = (report false).toList ∧
      Escape.Closed (report true).toList := by
  intro texts report
  have hclean : declaredTwice.Unescaped := ⟨by decide, by decide, by decide⟩
  obtain ⟨hreport, hpainted⟩ := report_color (m := Id) texts true hclean
  let line : Option (List Char) := Report.sourceLine (m := Id) texts true declaredTwice.primary
  let noteLines : List (Option (List Char)) := declaredTwice.notes.mapM (m := Id) fun note =>
    Report.sourceLine (m := Id) texts true note.span
  have hlines : ∀ answer ∈ line :: noteLines, ∀ shown ∈ answer, '\x1b' ∉ shown := by
    decide +kernel
  have htext (color : Bool) :
      report color = Report.text color (Report.layout true declaredTwice line noteLines) :=
    hreport color
  have hcolored : '\x1b' ∈ (report true).toList := by
    rw [htext]
    simp [Report.text, Report.layout, Report.header, Row.paint, Run.paint, Style.sequence]
  obtain ⟨hstripped, hplain, hclosed⟩ := hpainted line noteLines hlines
  rw [← htext, ← htext] at hstripped
  rw [← htext] at hplain hclosed
  exact ⟨hclean, hcolored, hplain, hstripped, hclosed⟩

end KlangFront
