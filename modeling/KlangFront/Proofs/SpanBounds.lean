import KlangFront.Diagnostic.Report

/-!
# The bounds of spans

`Bounds.checks` lists what the bounds of a span have to satisfy, each condition with
the error that tells of it. `Span.ofBounds` goes by this list: it takes bounds that
satisfy all of it and otherwise names the first condition that fails.

`SpanOrigin` lists the ways to make a span. Whichever is taken, the bounds satisfy the
same list, and they keep to it when the span is put into other files
(`SpanOrigin.make_inOrder`). So the width of a span, which is computed in words, never
wraps around, and a report never counts a line or a column below zero
(`Span.ComputesExactly`).
-/

namespace KlangFront

/-- The start line and column and the end line and column of a span, as plain words. -/
structure Bounds where
  startLine : UInt32
  startColumn : UInt32
  endLine : UInt32
  endColumn : UInt32
  deriving DecidableEq

namespace Bounds

/-- The conditions on bounds, in the order in which they are checked. -/
def checks (bounds : Bounds) : List (Bool × SpanError) := [
  (1 ≤ bounds.startLine.toNat, .zeroStartLine),
  (1 ≤ bounds.startColumn.toNat, .zeroStartColumn),
  (1 ≤ bounds.endColumn.toNat, .zeroEndColumn),
  (bounds.startLine.toNat ≤ bounds.endLine.toNat,
    .linesReversed bounds.startLine bounds.endLine),
  (bounds.startLine = bounds.endLine → bounds.startColumn.toNat ≤ bounds.endColumn.toNat,
    .columnsReversed bounds.startColumn bounds.endColumn)]

def InOrder (bounds : Bounds) : Prop := ∀ check ∈ bounds.checks, check.1 = true

/-- The error of the first condition that fails. -/
def firstBroken? (bounds : Bounds) : Option SpanError :=
  (bounds.checks.find? fun check => !check.1).map Prod.snd

theorem inOrder_iff {bounds : Bounds} : bounds.InOrder ↔
    1 ≤ bounds.startLine.toNat ∧ 1 ≤ bounds.startColumn.toNat ∧ 1 ≤ bounds.endColumn.toNat ∧
      bounds.startLine.toNat ≤ bounds.endLine.toNat ∧
      (bounds.startLine = bounds.endLine →
        bounds.startColumn.toNat ≤ bounds.endColumn.toNat) := by
  simp only [InOrder, checks, List.forall_mem_cons, decide_eq_true_eq, List.not_mem_nil,
    false_imp_iff, implies_true, and_true]

theorem firstBroken?_eq_none_iff {bounds : Bounds} :
    bounds.firstBroken? = none ↔ bounds.InOrder := by
  simp [firstBroken?, InOrder]

end Bounds

def Span.bounds (span : Span) : Bounds :=
  ⟨span.startLine.word, span.startColumn.word, span.endLine.word, span.endColumn.word⟩

/-- The ways to make a span. A line or a column that is given as a coordinate is not zero. -/
inductive SpanOrigin
  | ofBounds (bounds : Bounds)
  | point (line column : Coord)
  | onLine (line startColumn endColumn : Coord)

namespace SpanOrigin

def make (file : Option String) : SpanOrigin → Except SpanError Span
  | ofBounds bounds =>
    Span.ofBounds file bounds.startLine bounds.startColumn bounds.endLine bounds.endColumn
  | point line column => .ok (.point file line column)
  | onLine line startColumn endColumn => .ok (.onLine file line startColumn endColumn)

/-- The bounds that are asked for; the end of a part of a line is not before its start. -/
def bounds : SpanOrigin → Bounds
  | ofBounds bounds => bounds
  | point line column => ⟨line.word, column.word, line.word, column.word⟩
  | onLine line startColumn endColumn =>
    ⟨line.word, startColumn.word, line.word, max startColumn.word endColumn.word⟩

end SpanOrigin

/-- The result of making a span: the span that was asked for, if its bounds are in order,
and otherwise the error of the first condition that they break. -/
inductive SpanOrigin.Made (file : Option String) (origin : SpanOrigin) :
    Except SpanError Span → Prop
  | taken {span : Span} (order : origin.bounds.InOrder) (hfile : span.file = file)
      (hbounds : span.bounds = origin.bounds) : Made file origin (.ok span)
  | refused {error : SpanError} (broken : origin.bounds.firstBroken? = some error) :
      Made file origin (.error error)

-- ---------------------------------------------------------------------------
-- Checked bounds
-- ---------------------------------------------------------------------------

open Bounds (checks firstBroken?)

theorem Span.ofBounds_made (file : Option String) (bounds : Bounds) :
    (SpanOrigin.ofBounds bounds).Made file ((SpanOrigin.ofBounds bounds).make file) := by
  obtain ⟨startLine, startColumn, endLine, endColumn⟩ := bounds
  have hword (word : UInt32) : 0 < word ↔ 1 ≤ word.toNat := UInt32.lt_iff_toNat_lt
  simp only [SpanOrigin.make, ofBounds, hword, UInt32.le_iff_toNat_le]
  by_cases hline : 1 ≤ startLine.toNat
  case neg =>
    rw [dif_neg hline]
    exact .refused (by simp [SpanOrigin.bounds, firstBroken?, checks, hline])
  by_cases hstart : 1 ≤ startColumn.toNat
  case neg =>
    rw [dif_pos hline, dif_neg hstart]
    exact .refused (by simp [SpanOrigin.bounds, firstBroken?, checks, hline, hstart])
  by_cases hend : 1 ≤ endColumn.toNat
  case neg =>
    rw [dif_pos hline, dif_pos hstart, dif_neg hend]
    exact .refused (by simp [SpanOrigin.bounds, firstBroken?, checks, hline, hstart, hend])
  by_cases hlines : startLine.toNat ≤ endLine.toNat
  case neg =>
    rw [dif_pos hline, dif_pos hstart, dif_pos hend, dif_neg hlines]
    exact .refused (by simp [SpanOrigin.bounds, firstBroken?, checks, hline, hstart, hend, hlines])
  rw [dif_pos hline, dif_pos hstart, dif_pos hend, dif_pos hlines]
  by_cases hcolumns : startLine = endLine → startColumn.toNat ≤ endColumn.toNat
  case neg =>
    rw [dif_neg hcolumns]
    obtain ⟨rfl, hreversed⟩ := Classical.not_imp.mp hcolumns
    rw [Nat.not_le] at hreversed
    exact .refused (by
      simp [SpanOrigin.bounds, firstBroken?, checks, hline, hstart, hend, hreversed])
  rw [dif_pos hcolumns]
  exact .taken (Bounds.inOrder_iff.mpr ⟨hline, hstart, hend, hlines, hcolumns⟩) rfl rfl

theorem Coord.word_max (a b : Coord) : (a.max b).word = Max.max a.word b.word := by
  unfold max
  exact apply_ite word (a.word ≤ b.word) b a

theorem Bounds.inOrder_onLine (line startColumn endColumn : Coord) :
    InOrder ⟨line.word, startColumn.word, line.word, max startColumn.word endColumn.word⟩ := by
  have hline : 1 ≤ line.word.toNat := line.one_le_toNat
  have hstart : 1 ≤ startColumn.word.toNat := startColumn.one_le_toNat
  have hend : startColumn.word.toNat ≤ (max startColumn.word endColumn.word).toNat := by
    rw [← Coord.word_max]
    exact Coord.le_iff_toNat_le.mp (startColumn.le_max_left endColumn)
  exact inOrder_iff.mpr ⟨hline, hstart, Nat.le_trans hstart hend, Nat.le_refl _, fun _ => hend⟩

theorem Span.onLine_made (file : Option String) (line startColumn endColumn : Coord) :
    (SpanOrigin.onLine line startColumn endColumn).Made file
      (.ok (.onLine file line startColumn endColumn)) := by
  refine .taken (Bounds.inOrder_onLine line startColumn endColumn) rfl ?_
  rw [bounds, onLine, Coord.word_max, SpanOrigin.bounds]

theorem SpanOrigin.made (file : Option String) (origin : SpanOrigin) :
    origin.Made file (origin.make file) := by
  cases origin with
  | ofBounds bounds => exact Span.ofBounds_made file bounds
  | onLine line startColumn endColumn => exact Span.onLine_made file line startColumn endColumn
  | point line column =>
    -- a point is the part of a line from a column to the same column
    have hsame : (onLine line column column).bounds = (point line column).bounds := by
      simp only [bounds, show max column.word column.word = column.word from ite_self _]
    cases Span.onLine_made file line column column with
    | taken order hfile hbounds => exact .taken (hsame ▸ order) hfile (hsame ▸ hbounds)

/-- A change of the file leaves the bounds alone, and so do any number of them. -/
theorem Span.foldl_withFile (span : Span) (files : List (Option String)) :
    (files.foldl withFile span).bounds = span.bounds ∧
      (files.foldl withFile span).file = files.getLastD span.file := by
  induction files generalizing span with
  | nil => exact ⟨rfl, rfl⟩
  | cons file files ih =>
    rw [List.foldl_cons, List.getLastD_cons]
    exact ih (span.withFile file)

-- ---------------------------------------------------------------------------
-- Arithmetic on bounds
-- ---------------------------------------------------------------------------

/-- The width of a span is computed without leaving the words, and the offsets of a
report without going below zero. -/
structure Span.ComputesExactly (span : Span) : Prop where
  subtraction : span.startLine = span.endLine →
    BitVec.usubOverflow span.endColumn.word.toBitVec span.startColumn.word.toBitVec = false
  addition : span.startLine = span.endLine →
    BitVec.uaddOverflow (span.endColumn.word - span.startColumn.word).toBitVec 1 = false
  /-- Spans on one line have a width, and only they. -/
  length : span.length? = none ↔ span.startLine ≠ span.endLine
  width : ∀ width ∈ span.length?, 1 ≤ width.toNat ∧
    (width.toNat : Int) = span.endColumn.toNat - span.startColumn.toNat + 1
  /-- The index of the source line among the lines of its file. -/
  line : ((span.startLine.toNat - 1 : Nat) : Int) = span.startLine.toNat - 1
  /-- How far the marks below the source line are indented. -/
  indent : (((Report.gutter span.startLine).length + span.startColumn.toNat - 1 : Nat) : Int)
    = (Report.gutter span.startLine).length + span.startColumn.toNat - 1

theorem Span.computesExactly {span : Span} (h : span.bounds.InOrder) : span.ComputesExactly := by
  obtain ⟨hline, hcolumn, -, -, hcolumns⟩ := Bounds.inOrder_iff.mp h
  change 1 ≤ span.startLine.toNat at hline
  change 1 ≤ span.startColumn.toNat at hcolumn
  have hle (hsingle : span.startLine = span.endLine) : span.startColumn ≤ span.endColumn :=
    Coord.le_iff_toNat_le.mpr (hcolumns (congrArg Coord.word hsingle))
  constructor
  case subtraction =>
    intro hsingle
    simpa [BitVec.usubOverflow, Coord.toNat] using Coord.le_iff_toNat_le.mp (hle hsingle)
  case addition =>
    intro hsingle
    have hlimit := span.endColumn.toNat_le_limit
    have hdifference : (span.endColumn.word - span.startColumn.word).toNat
        = span.endColumn.toNat - span.startColumn.toNat :=
      UInt32.toNat_sub_of_le _ _ (hle hsingle)
    unfold Coord.limit at hlimit
    rw [BitVec.uaddOverflow, UInt32.toNat_toBitVec, hdifference]
    simp
    omega
  case length => simp [length?, isSingleLine]
  case width =>
    intro width hwidth
    simp only [length?, isSingleLine, decide_eq_true_eq, Option.mem_def,
      Option.ite_none_right_eq_some, Option.some.injEq] at hwidth
    obtain ⟨hsingle, rfl⟩ := hwidth
    have horder := Coord.le_iff_toNat_le.mp (hle hsingle)
    rw [Coord.toNat_width (hle hsingle)]
    omega
  case line => omega
  case indent => omega

-- ---------------------------------------------------------------------------
-- Spans as they are made
-- ---------------------------------------------------------------------------

/-- A span is made if its bounds are in order, and is refused for the first condition that
they break. It keeps its bounds whatever file it is put into, and arithmetic on them is
exact. -/
theorem SpanOrigin.make_inOrder (file : Option String) (origin : SpanOrigin) :
    ((∃ span, origin.make file = .ok span) ↔ origin.bounds.InOrder) ∧
      (∀ error, origin.make file = .error error ↔ origin.bounds.firstBroken? = some error) ∧
      ∀ span, origin.make file = .ok span → ∀ files : List (Option String),
        let moved := files.foldl Span.withFile span
        moved.bounds = origin.bounds ∧ moved.bounds.InOrder ∧
          moved.file = files.getLastD file ∧ moved.ComputesExactly := by
  have hmade := origin.made file
  cases hresult : origin.make file with
  | error found =>
    rw [hresult] at hmade
    cases hmade with
    | refused broken =>
      have hnone : ¬origin.bounds.InOrder := by simp [← Bounds.firstBroken?_eq_none_iff, broken]
      simp [broken, hnone]
  | ok made =>
    rw [hresult] at hmade
    cases hmade with
    | taken order hfile hbounds =>
      refine ⟨by simp [order], by simp [Bounds.firstBroken?_eq_none_iff.mpr order], ?_⟩
      rintro span hspan files moved
      obtain rfl := Except.ok.inj hspan
      obtain ⟨hsame, hlast⟩ := made.foldl_withFile files
      have hmoved : moved.bounds = origin.bounds := hsame.trans hbounds
      have hmoved_order : moved.bounds.InOrder := hmoved ▸ order
      exact ⟨hmoved, hmoved_order, hfile ▸ hlast, Span.computesExactly hmoved_order⟩

/-- A span that is as wide as a span can be, put into three files one after the other. -/
theorem SpanOrigin.make_inOrder_widest :
    let span : Span := .onLine none (.clamp 7) (.clamp 1) (.clamp Coord.limit)
    let moved := [some "a.k", none, some ""].foldl Span.withFile span
    (ofBounds ⟨7, 1, 7, 4294967295⟩).make none = .ok span ∧ moved.file = some "" ∧
      moved.ComputesExactly ∧ moved.length? = some 4294967295 := by
  intro span moved
  have hspan : (ofBounds ⟨7, 1, 7, 4294967295⟩).make none = .ok span := rfl
  obtain ⟨-, -, hmade⟩ := make_inOrder none (ofBounds ⟨7, 1, 7, 4294967295⟩)
  obtain ⟨-, -, hfile, hexact⟩ := hmade span hspan [some "a.k", none, some ""]
  exact ⟨hspan, hfile, hexact, by decide +kernel⟩

end KlangFront
