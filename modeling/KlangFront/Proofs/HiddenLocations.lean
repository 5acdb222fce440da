import KlangFront.Proofs.ReportReads

/-!
# Reports without locations

`Diagnostic.blocks` divides a report into rows that it has anyway and the locations of the
problem and of its notes. Whether locations are shown decides which of these blocks are
laid out, and nothing else (`Report.rows_eq_blockRows`). So a report without locations is
the full one without its location blocks, and at the same time the full report of a
diagnostic that has no locations: `Diagnostic.report_hidden`.
-/

namespace KlangFront

def Note.unplaced (note : Note) : Note := { note with span := none }

/-- A diagnostic without its place and without those of its notes. The places that it
refers to stay. -/
def Diagnostic.unplaced (d : Diagnostic) : Diagnostic :=
  { d with primary := none, notes := d.notes.map Note.unplaced }

namespace Report

/-- A block of a report: a row of its own, or a place with its source line. -/
inductive Block
  | own (row : Row)
  | location (indent : String) (style : Style) (span : Span)

namespace Block

def place? : Block → Option Span
  | own _ => none
  | location _ _ span => some span

/-- Whether a block is shown: rows always are, and locations if they are asked for. -/
def isShown (locations : Bool) (block : Block) : Bool := locations || block.place?.isNone

def rows {m : Type → Type} [Monad m] (read : String → m (Option String)) : Block → m (List Row)
  | own row => pure [row]
  | location indent style span => Report.location read indent style span

@[simp] theorem place?_own (row : Row) : (own row).place? = none := rfl

@[simp] theorem place?_location (indent : String) (style : Style) (span : Span) :
    (location indent style span).place? = some span := rfl

@[simp] theorem isShown_own (locations : Bool) (row : Row) :
    (own row).isShown locations = true := by
  simp [isShown]

@[simp] theorem isShown_location (locations : Bool) (indent : String) (style : Style)
    (span : Span) : (location indent style span).isShown locations = locations := by
  simp [isShown]

theorem filter_own (locations : Bool) (rows : List Row) :
    (rows.map own).filter (·.isShown locations) = rows.map own :=
  List.filter_eq_self.mpr (by simp)

end Block

/-- The rows of blocks, laid out one below the other. -/
def blockRows {m : Type → Type} [Monad m] (read : String → m (Option String))
    (blocks : List Block) : m (List Row) :=
  List.flatten <$> blocks.mapM (Block.rows read)

def locationBlocks (indent : String) (style : Style) (span : Option Span) : List Block :=
  span.toList.map (.location indent style)

def noteBlocks (note : Note) : List Block :=
  .own (noteLine note) :: locationBlocks "    " .info note.span

end Report

open Report (Block)

/-- The blocks of a report that shows all locations, in its order. -/
def Diagnostic.blocks (d : Diagnostic) : List Block :=
  .own (Report.header d) :: Report.locationBlocks "  " d.severity.style d.primary
    ++ (d.secondary.map Report.reference).map .own ++ d.notes.flatMap Report.noteBlocks

/-- The rows of a report that do not belong to a location. -/
def Diagnostic.ownRows (d : Diagnostic) : List Row :=
  Report.header d :: d.secondary.map Report.reference ++ d.notes.map Report.noteLine

namespace Report

-- ---------------------------------------------------------------------------
-- A report is its blocks, laid out
-- ---------------------------------------------------------------------------

section Layout

variable {m : Type → Type} [Monad m] [LawfulMonad m] (read : String → m (Option String))

@[simp] theorem blockRows_nil : blockRows read [] = pure [] := by
  simp [blockRows]

@[simp] theorem blockRows_cons (block : Block) (blocks : List Block) :
    blockRows read (block :: blocks) = do
      let first ← block.rows read
      let later ← blockRows read blocks
      return first ++ later := by
  simp [blockRows]

theorem blockRows_append (blocks others : List Block) :
    blockRows read (blocks ++ others) = do
      let first ← blockRows read blocks
      let later ← blockRows read others
      return first ++ later := by
  simp [blockRows]

theorem blockRows_own (rows : List Row) : blockRows read (rows.map .own) = pure rows := by
  induction rows with
  | nil => simp
  | cons row rows ih => simp [ih, Block.rows]

variable (locations : Bool)

theorem location?_eq_blockRows (indent : String) (style : Style) (span : Option Span) :
    location? read locations indent style span
      = blockRows read ((locationBlocks indent style span).filter (·.isShown locations)) := by
  cases span with
  | none => simp [location?, locationBlocks]
  | some span => cases locations <;> simp [location?, locationBlocks, Block.rows]

theorem note_eq_blockRows (aNote : Note) :
    note read locations aNote
      = blockRows read ((noteBlocks aNote).filter (·.isShown locations)) := by
  simp [note, noteBlocks, location?_eq_blockRows, Block.rows]

theorem notes_eq_blockRows (notes : List Note) :
    List.flatten <$> notes.mapM (note read locations)
      = blockRows read ((notes.flatMap noteBlocks).filter (·.isShown locations)) := by
  induction notes with
  | nil => simp
  | cons aNote notes ih =>
    rw [List.flatMap_cons, List.filter_append, blockRows_append, ← note_eq_blockRows, ← ih]
    simp

/-- A report is laid out from its blocks, and the option decides which of them. -/
theorem rows_eq_blockRows (d : Diagnostic) :
    rows read locations d = blockRows read (d.blocks.filter (·.isShown locations)) := by
  rw [Diagnostic.blocks, List.filter_append, List.filter_append, blockRows_append,
    blockRows_append, Block.filter_own, blockRows_own, ← notes_eq_blockRows]
  simp [rows, location?_eq_blockRows, Block.rows]

end Layout

-- ---------------------------------------------------------------------------
-- Which blocks are locations
-- ---------------------------------------------------------------------------

theorem filter_locationBlocks (indent : String) (style : Style) (span : Option Span) :
    (locationBlocks indent style span).filter (·.isShown false) = [] := by
  cases span <;> simp [locationBlocks]

theorem filterMap_locationBlocks (indent : String) (style : Style) (span : Option Span) :
    (locationBlocks indent style span).filterMap Block.place? = span.toList := by
  cases span <;> simp [locationBlocks]

theorem filter_noteBlocks (notes : List Note) :
    (notes.flatMap noteBlocks).filter (·.isShown false) = (notes.map noteLine).map .own := by
  induction notes with
  | nil => rfl
  | cons aNote notes ih => simp [noteBlocks, filter_locationBlocks, ih]

theorem filterMap_noteBlocks (notes : List Note) :
    (notes.flatMap noteBlocks).filterMap Block.place? = notes.filterMap Note.span := by
  induction notes with
  | nil => rfl
  | cons aNote notes ih =>
    rw [List.flatMap_cons, List.filterMap_append, ih, noteBlocks, List.filterMap_cons,
      filterMap_locationBlocks]
    cases hspan : aNote.span <;> simp [hspan]

theorem noteBlocks_unplaced (notes : List Note) :
    (notes.map Note.unplaced).flatMap noteBlocks = (notes.map noteLine).map .own := by
  induction notes with
  | nil => rfl
  | cons aNote notes ih =>
    rw [List.map_cons, List.flatMap_cons, ih]
    rfl

end Report

namespace Diagnostic

open Report

variable (d : Diagnostic)

/-- Without its locations, a report has its own rows and no others. -/
theorem filter_blocks : d.blocks.filter (·.isShown false) = d.ownRows.map .own := by
  rw [blocks, List.filter_append, List.filter_append, List.filter_cons, filter_locationBlocks,
    Block.filter_own, filter_noteBlocks]
  simp [ownRows]

theorem blocks_unplaced : d.unplaced.blocks = d.ownRows.map .own := by
  rw [blocks, unplaced, noteBlocks_unplaced]
  simp [ownRows, locationBlocks, header]

theorem filterMap_blocks :
    d.blocks.filterMap Block.place? = d.primary.toList ++ d.notes.filterMap Note.span := by
  have hown : ((d.secondary.map reference).map Block.own).filterMap Block.place? = [] := by
    simp [List.filterMap_eq_nil_iff]
  rw [blocks, List.filterMap_append, List.filterMap_append, List.filterMap_cons,
    filterMap_locationBlocks, hown, filterMap_noteBlocks]
  simp

end Diagnostic

-- ---------------------------------------------------------------------------
-- Reports with and without locations
-- ---------------------------------------------------------------------------

/-- A report is the text of its blocks. If locations are hidden, it is the text of those
blocks that are no locations: the header, the references and the lines of the notes, which
ask the reader for nothing. It is then also the report of the diagnostic that has lost its
place and those of its notes. The blocks that go are those of the place of the problem and
of each note that has one, an arrow with the source line below it, if this can be had. -/
theorem Diagnostic.report_hidden {m : Type → Type} [Monad m] [LawfulMonad m]
    (read : String → m (Option String)) (color : Bool) (d : Diagnostic) :
    d.report read ⟨color, false⟩ = d.unplaced.report read ⟨color, true⟩ ∧
    d.report read ⟨color, true⟩ = Report.text color <$> Report.blockRows read d.blocks ∧
    d.report read ⟨color, false⟩
      = Report.text color <$> Report.blockRows read (d.blocks.filter (·.place?.isNone)) ∧
    d.report read ⟨color, false⟩ = pure (Report.text color d.ownRows) ∧
    d.blocks.filterMap Block.place? = d.primary.toList ++ d.notes.filterMap Note.span ∧
    ∀ indent style span, (Block.location indent style span).rows read
      = (fun source => Report.arrow indent span :: source.elim [] (Report.excerpt span style))
        <$> Report.sourceLine read true (some span) := by
  have hreport (other : Diagnostic) (locations : Bool) : other.report read ⟨color, locations⟩
      = Report.text color
        <$> Report.blockRows read (other.blocks.filter (·.isShown locations)) := by
    rw [report, Report.rows_eq_blockRows, bind_pure_comp]
  have hall (other : Diagnostic) : other.blocks.filter (·.isShown true) = other.blocks :=
    List.filter_eq_self.mpr fun _ _ => rfl
  have hidden : d.report read ⟨color, false⟩ = pure (Report.text color d.ownRows) := by
    rw [hreport, d.filter_blocks, Report.blockRows_own, map_pure]
  -- a diagnostic without locations has the blocks that are left of the other one, as own rows
  refine ⟨?_, ?_, hreport d false, hidden, d.filterMap_blocks, ?_⟩
  · rw [hidden, hreport, hall, d.blocks_unplaced, Report.blockRows_own, map_pure]
  · rw [hreport, hall]
  · intro indent style span
    exact Report.location?_eq read true indent style (some span)

/-- A report with three places, of which one has a source line. -/
theorem Diagnostic.declaredTwice_report_hidden :
    let texts (file : String) : Option String :=
      if file = "use.k" then some "import lib\ninteger x\n" else none
    let read := Report.recording texts
    declaredTwice.report read ⟨false, false⟩ = declaredTwice.unplaced.report read ⟨false, true⟩ ∧
      declaredTwice.recordedReport texts ⟨false, false⟩
        = ("ERROR: 'x' is declared twice\n  ::: referenced at main.k:1:1\n"
            ++ "  > note: declared here\n  > note: imported here\n"
            ++ "  > note: rename one of them\n", []) ∧
      (declaredTwice.blocks.filterMap Block.place?).length = 3 ∧
      (declaredTwice.blocks.filter (·.place?.isNone)).length = 5 := by
  intro texts read
  obtain ⟨hunplaced, -, -, hidden, hplaces, -⟩ := report_hidden read false declaredTwice
  refine ⟨hunplaced, ?_, ?_, by decide⟩
  · rw [recordedReport, hidden]
    decide +kernel
  · rw [hplaces]
    rfl

end KlangFront
