import KlangFront.Diagnostic.Report
import Mathlib.Data.List.Basic

/-!
# What a report reads

A report shows the places of a diagnostic, and asks its reader for the source line
of each of them that has a file. `Report.rows_eq` takes a report apart into these
questions and a layout of their answers, which asks nothing more. So the files that
are read are those of the places, in the order of the report, and of each file
nothing matters but the line of the place: `Diagnostic.report_reads`.
-/

namespace KlangFront

/-- The line of a file on which a span starts. -/
def Span.firstLine? (span : Span) : Option (String × Coord) :=
  span.file.map fun file => (file, span.startLine)

/-- The lines of files that a report shows, in its order. Places that a diagnostic only
refers to are not shown. -/
def Diagnostic.shownLines (locations : Bool) (diagnostic : Diagnostic) : List (String × Coord) :=
  if locations then
    (diagnostic.primary.toList ++ diagnostic.notes.filterMap Note.span).filterMap Span.firstLine?
  else []

namespace Report

/-- The line of a file that is shown for a place, if there is a place and it has a file. -/
def shownLine? (locations : Bool) (span : Option Span) : Option (String × Coord) :=
  if locations then span.bind Span.firstLine? else none

section Parts

variable {m : Type → Type} [Monad m] (read : String → m (Option String))

/-- A line of a file, if the reader has the file and the file has the line. -/
def lineOf (file : String) (line : Coord) : m (Option (List Char)) := do
  let source ← read file
  return source.bind fun text => Text.line? text.toList line.toNat

/-- The source line of a place. Nothing is read for a place that shows none. -/
def sourceLine (locations : Bool) (span : Option Span) : m (Option (List Char)) :=
  match shownLine? locations span with
  | some (file, line) => lineOf read file line
  | none => pure none

theorem sourceLine_congr {read other : String → m (Option String)} {locations : Bool}
    {span : Option Span}
    (hsame : ∀ shown ∈ shownLine? locations span,
      lineOf read shown.1 shown.2 = lineOf other shown.1 shown.2) :
    sourceLine read locations span = sourceLine other locations span := by
  unfold sourceLine
  cases hshown : shownLine? locations span with
  | none => rfl
  | some shown => exact hsame shown hshown

/-- A reader that also keeps the names that it was asked for, in order. -/
def logged (file : String) : StateT (List String) m (Option String) := do
  modify (· ++ [file])
  read file

/-- Known texts are recorded as any other reader is logged. -/
theorem logged_eq_recording (texts : String → Option String) :
    logged (m := Id) texts = recording texts := rfl

end Parts

/-- The rows of a place, given its source line. -/
def placeRows (locations : Bool) (indent : String) (style : Style) (span : Option Span)
    (line : Option (List Char)) : List Row :=
  match span with
  | some span => if locations then arrow indent span :: line.elim [] (excerpt span style) else []
  | none => []

def noteRows (locations : Bool) (note : Note) (line : Option (List Char)) : List Row :=
  noteLine note :: placeRows locations "    " .info note.span line

/-- The rows of a report, given the source line of the problem and of each note. -/
def layout (locations : Bool) (diagnostic : Diagnostic) (line : Option (List Char))
    (noteLines : List (Option (List Char))) : List Row :=
  header diagnostic
    :: placeRows locations "  " diagnostic.severity.style diagnostic.primary line
    ++ diagnostic.secondary.map reference
    ++ (diagnostic.notes.zipWith (noteRows locations) noteLines).flatten

theorem shownLines_eq (locations : Bool) (d : Diagnostic) :
    d.shownLines locations = (shownLine? locations d.primary).toList
      ++ d.notes.flatMap fun note => (shownLine? locations note.span).toList := by
  cases locations with
  | false => simp [Diagnostic.shownLines, shownLine?]
  | true =>
    have hprimary : d.primary.toList.filterMap Span.firstLine?
        = (d.primary.bind Span.firstLine?).toList := by
      cases d.primary with
      | none => rfl
      | some span => cases hline : span.firstLine? <;> simp [hline]
    simp only [Diagnostic.shownLines, shownLine?, if_true, List.filterMap_append,
      List.filterMap_filterMap, hprimary, ← List.filterMap_eq_flatMap_toList]

-- ---------------------------------------------------------------------------
-- A report is its source lines, laid out
-- ---------------------------------------------------------------------------

section Layout

variable {m : Type → Type} [Monad m] [LawfulMonad m] (read : String → m (Option String))

/-- A place with a file asks for its source line; no other place asks for anything. -/
theorem location?_eq (locations : Bool) (indent : String) (style : Style) (span : Option Span) :
    location? read locations indent style span
      = placeRows locations indent style span <$> sourceLine read locations span := by
  cases span with
  | none => cases locations <;> simp [location?, sourceLine, shownLine?, placeRows]
  | some span =>
    cases locations with
    | false => simp [location?, sourceLine, shownLine?, placeRows]
    | true =>
      cases hfile : span.file with
      | none =>
        simp [location?, location, context, sourceLine, shownLine?, Span.firstLine?, placeRows,
          hfile]
      | some file =>
        simp only [location?, location, context, sourceLine, shownLine?, Span.firstLine?, hfile,
          lineOf, placeRows, if_true, Option.bind_some, Option.map_some, bind_assoc, pure_bind,
          map_bind, map_pure]
        refine bind_congr fun source => ?_
        cases source.bind fun text => Text.line? text.toList span.startLine.toNat <;> rfl

theorem note_eq (locations : Bool) (aNote : Note) :
    note read locations aNote
      = noteRows locations aNote <$> sourceLine read locations aNote.span := by
  simp only [note, location?_eq, bind_pure_comp, Functor.map_map]
  rfl

/-- Results made of answers one by one may as well be made when all the answers are there. -/
private theorem mapM_map_eq_zipWith {α β γ : Type} (ask : α → m β) (make : α → β → γ)
    (xs : List α) : xs.mapM (fun x => make x <$> ask x) = xs.zipWith make <$> xs.mapM ask := by
  induction xs with
  | nil => simp
  | cons x xs ih => simp [ih]

theorem rows_eq (locations : Bool) (d : Diagnostic) :
    rows read locations d = do
      let line ← sourceLine read locations d.primary
      let noteLines ← d.notes.mapM fun note => sourceLine read locations note.span
      return layout locations d line noteLines := by
  have hnotes : d.notes.mapM (note read locations)
      = d.notes.zipWith (noteRows locations)
        <$> d.notes.mapM fun note => sourceLine read locations note.span := by
    rw [← mapM_map_eq_zipWith]
    exact congrArg d.notes.mapM (funext (note_eq read locations))
  simp [rows, hnotes, location?_eq, layout]

private theorem mapM_congr {α β : Type} {f g : α → m β} {xs : List α}
    (h : ∀ x ∈ xs, f x = g x) : xs.mapM f = xs.mapM g := by
  induction xs with
  | nil => rfl
  | cons x xs ih =>
    rw [List.mapM_cons, List.mapM_cons, h x List.mem_cons_self,
      ih fun y hy => h y (List.mem_cons_of_mem x hy)]

theorem rows_congr {read other : String → m (Option String)} {locations : Bool} {d : Diagnostic}
    (hsame : ∀ shown ∈ d.shownLines locations,
      lineOf read shown.1 shown.2 = lineOf other shown.1 shown.2) :
    rows read locations d = rows other locations d := by
  simp only [shownLines_eq, List.mem_append, Option.mem_toList, List.mem_flatMap] at hsame
  have hprimary : sourceLine read locations d.primary = sourceLine other locations d.primary :=
    sourceLine_congr fun shown hshown => hsame shown (.inl hshown)
  have hnotes : d.notes.mapM (fun note => sourceLine read locations note.span)
      = d.notes.mapM fun note => sourceLine other locations note.span :=
    mapM_congr fun note hnote =>
      sourceLine_congr fun shown hshown => hsame shown (.inr ⟨note, hnote, hshown⟩)
  rw [rows_eq, rows_eq, hprimary, hnotes]

end Layout

-- ---------------------------------------------------------------------------
-- What a run has asked for
-- ---------------------------------------------------------------------------

/-- A run does what another one does, and adds the files that it asks for to the log. -/
def Logs {m : Type → Type} [Monad m] {α : Type} (files : List String)
    (x : StateT (List String) m α) (y : m α) : Prop :=
  ∀ log, x.run log = (fun a => (a, log ++ files)) <$> y

namespace Logs

variable {m : Type → Type} [Monad m] [LawfulMonad m] {α β : Type}

theorem logged (read : String → m (Option String)) (file : String) :
    Logs [file] (Report.logged read file) (read file) := by
  intro log
  simp [Report.logged]

theorem pure (a : α) : Logs [] (Pure.pure a : StateT (List String) m α) (Pure.pure a) := by
  intro log
  simp

theorem bind {first second : List String} {x : StateT (List String) m α} {y : m α}
    {f : α → StateT (List String) m β} {g : α → m β} (h : Logs first x y)
    (hf : ∀ a, Logs second (f a) (g a)) : Logs (first ++ second) (x >>= f) (y >>= g) := by
  intro log
  simp [h log, hf _ _]

theorem map {files : List String} {x : StateT (List String) m α} {y : m α} (f : α → β)
    (h : Logs files x y) : Logs files (f <$> x) (f <$> y) := by
  intro log
  simp [h log]

theorem mapM {γ : Type} {files : γ → List String} {f : γ → StateT (List String) m α}
    {g : γ → m α} (h : ∀ x, Logs (files x) (f x) (g x)) (xs : List γ) :
    Logs (xs.flatMap files) (xs.mapM f) (xs.mapM g) := by
  induction xs with
  | nil => simpa using pure []
  | cons x xs ih =>
    simp only [List.mapM_cons, List.flatMap_cons, bind_pure_comp]
    exact (h x).bind fun a => ih.map (a :: ·)

theorem sourceLine (read : String → m (Option String)) (locations : Bool) (span : Option Span) :
    Logs ((shownLine? locations span).toList.map Prod.fst)
      (Report.sourceLine (Report.logged read) locations span)
      (Report.sourceLine read locations span) := by
  unfold Report.sourceLine
  cases shownLine? locations span with
  | none => exact pure none
  | some shown =>
    simp only [lineOf, bind_pure_comp]
    exact (logged read shown.1).map _

theorem rows (read : String → m (Option String)) (locations : Bool) (d : Diagnostic) :
    Logs ((d.shownLines locations).map Prod.fst) (Report.rows (Report.logged read) locations d)
      (Report.rows read locations d) := by
  rw [rows_eq, rows_eq, shownLines_eq, List.map_append, List.map_flatMap]
  refine (sourceLine read locations d.primary).bind fun line => ?_
  simp only [bind_pure_comp]
  exact (mapM (fun note => sourceLine read locations note.span) d.notes).map _

end Logs

end Report

-- ---------------------------------------------------------------------------
-- Reads and dependence
-- ---------------------------------------------------------------------------

/-- A report asks its reader for the files of the lines that it shows, in their order and
with repeats, and for nothing else. A reader that gives the same lines gives the same
report, whatever else is in the files. -/
theorem Diagnostic.report_reads {m : Type → Type} [Monad m] [LawfulMonad m]
    (read : String → m (Option String)) (options : ReportOptions) (d : Diagnostic) :
    (∀ log, (d.report (Report.logged read) options).run log
      = (fun text => (text, log ++ (d.shownLines options.locations).map Prod.fst))
        <$> d.report read options)
    ∧ ∀ other : String → m (Option String),
      (∀ shown ∈ d.shownLines options.locations,
        Report.lineOf read shown.1 shown.2 = Report.lineOf other shown.1 shown.2) →
      d.report read options = d.report other options := by
  constructor
  · have hlogs := (Report.Logs.rows read options.locations d).map (Report.text options.color)
    intro log
    simpa only [Diagnostic.report, bind_pure_comp] using hlogs log
  · intro other hsame
    rw [Diagnostic.report, Diagnostic.report, Report.rows_congr hsame]

/-- A problem with a line of its own, a line of a note, and places that show no line. -/
def Diagnostic.declaredTwice : Diagnostic where
  severity := .semanticError
  message := "'x' is declared twice"
  primary := some (.point (some "use.k") (.clamp 2) (.clamp 9))
  secondary := [.point (some "main.k") (.clamp 1) (.clamp 1)]
  notes := [
    ⟨"declared here", some (.point (some "lib.k") (.clamp 7) (.clamp 1)), by decide⟩,
    ⟨"imported here", some (.point none (.clamp 1) (.clamp 1)), by decide⟩,
    ⟨"rename one of them", none, by decide⟩]
  message_ne_empty := by decide

/-- A file that is too short for its line is as good as no file, and the line before the
one that is shown does not matter. -/
theorem Diagnostic.declaredTwice_report_reads :
    let texts (file : String) : Option String :=
      if file = "use.k" then some "import lib\ninteger x\n" else some "integer x"
    let others (file : String) : Option String :=
      if file = "use.k" then some "\r\ninteger x\r\n" else none
    (declaredTwice.recordedReport texts ⟨true, true⟩).2 = ["use.k", "lib.k"] ∧
      declaredTwice.report (m := Id) texts ⟨true, true⟩
        = declaredTwice.report (m := Id) others ⟨true, true⟩ := by
  intro texts others
  have hreads := report_reads (m := Id) texts ⟨true, true⟩ declaredTwice
  have hlog := congrArg Prod.snd (hreads.1 [])
  have hsame : ∀ shown ∈ declaredTwice.shownLines true, @Eq (Option (List Char))
      (Report.lineOf (m := Id) texts shown.1 shown.2)
      (Report.lineOf (m := Id) others shown.1 shown.2) := by
    decide +kernel
  exact ⟨hlog, hreads.2 others hsame⟩

end KlangFront
