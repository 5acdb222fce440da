import Mathlib.Data.List.DropRight
import KlangFront.Diagnostic.Batch
import KlangFront.Lexical.Tokens

/-!
# Runs over a batch of diagnostics

A caller reports to a batch, asks about it, goes on with a copy of it or starts a new
one. `Batch.run` is the batch after such steps. It holds what was reported since the last
new batch (`Batch.toList_run`), and each query follows from that list alone
(`Batch.answers`), so the five of them never contradict one another. A step that starts no
new batch only adds to it (`Batch.GrowsTo`).
-/

namespace KlangFront

/-- What a caller does with a batch. -/
inductive BatchStep
  | report (diagnostic : Diagnostic)
  /-- A source is scanned, and its error is reported if it has one. -/
  | scan (file : Option String) (source : String)
  | firstFatal
  | list
  | copy
  /-- The caller goes on with a batch of its own. -/
  | renew
  deriving DecidableEq

namespace BatchStep

/-- The batch that a caller goes on with after a step. -/
def apply (batch : Batch) : BatchStep → Batch
  | report diagnostic => batch.report diagnostic
  | scan file source =>
    match tokenize file source with
    | .ok _ => batch
    | .error error => batch.report error.toDiagnostic
  | firstFatal | list | copy => batch
  | renew => .empty

/-- What a step reports. -/
def reported? : BatchStep → Option Diagnostic
  | report diagnostic => some diagnostic
  | scan file source =>
    match tokenize file source with
    | .ok _ => none
    | .error error => some error.toDiagnostic
  | firstFatal | list | copy | renew => none

/-- What is reported behind the last step that starts a new batch. -/
def sinceRenewal (steps : List BatchStep) : List Diagnostic :=
  (steps.rtakeWhile (· ≠ renew)).filterMap reported?

end BatchStep

namespace Batch

def run (steps : List BatchStep) : Batch := steps.foldl BatchStep.apply .empty

/-- The answers of a batch, given the diagnostics that were reported to it. -/
structure Answers (batch : Batch) (reported : List Diagnostic) : Prop where
  listed : batch.toList = reported
  counted : batch.size = reported.length
  hasFatal_iff : batch.hasFatal = true ↔ 0 < batch.fatalCount
  isSome_iff : batch.firstFatal?.isSome = true ↔ 0 < batch.fatalCount
  /-- The fatal diagnostic that is singled out is the earliest. -/
  firstFatal_iff : ∀ {diagnostic : Diagnostic}, batch.firstFatal? = some diagnostic ↔
    diagnostic.isFatal = true ∧ ∃ before after, reported = before ++ diagnostic :: after ∧
      ∀ earlier ∈ before, earlier.isFatal = false
  total : batch.fatalCount + batch.warningCount + reported.countP (·.severity = .info) = batch.size

/-- A batch later on in the same pass. -/
structure GrowsTo (batch later : Batch) : Prop where
  front : batch.toList <+: later.toList
  size_le : batch.size ≤ later.size
  fatalCount_le : batch.fatalCount ≤ later.fatalCount
  warningCount_le : batch.warningCount ≤ later.warningCount
  firstFatal : ∀ {diagnostic : Diagnostic}, batch.firstFatal? = some diagnostic →
    later.firstFatal? = some diagnostic

variable {batch later : Batch} {diagnostic : Diagnostic} {steps : List BatchStep} {step : BatchStep}

-- ---------------------------------------------------------------------------
-- One step
-- ---------------------------------------------------------------------------

/-- A step adds what it reports to the list, or it starts a new one. -/
theorem toList_apply (batch : Batch) (step : BatchStep) (h : step ≠ .renew) :
    (step.apply batch).toList = batch.toList ++ step.reported?.toList := by
  cases step with
  | report diagnostic => exact toList_report batch diagnostic
  | scan file source =>
    cases hscan : tokenize file source <;> simp [BatchStep.apply, BatchStep.reported?, hscan]
  | firstFatal | list | copy => exact (List.append_nil _).symm
  | renew => exact absurd rfl h

/-- The scan of a source that fails counts as one more fatal diagnostic. -/
theorem fatalCount_scan {file : Option String} {source : String} {error : LexicalError}
    (h : tokenize file source = .error error) (batch : Batch) :
    ((BatchStep.scan file source).apply batch).fatalCount = batch.fatalCount + 1 := by
  have hfatal : error.toDiagnostic.isFatal = true := rfl
  simp [BatchStep.apply, h, fatalCount, hfatal]

/-- The queries depend on the list only, and grow with it. -/
theorem growsTo_of_isPrefix (h : batch.toList <+: later.toList) : batch.GrowsTo later where
  front := h
  size_le := by simpa using h.length_le
  fatalCount_le := h.sublist.countP_le
  warningCount_le := h.sublist.countP_le
  firstFatal := h.find?_eq_some

theorem toList_foldl (batch : Batch) (h : .renew ∉ steps) :
    (steps.foldl BatchStep.apply batch).toList
      = batch.toList ++ steps.filterMap BatchStep.reported? := by
  induction steps generalizing batch with
  | nil => simp
  | cons step steps ih =>
    rw [List.mem_cons, not_or] at h
    obtain ⟨hstep, hsteps⟩ := h
    rw [List.foldl_cons, ih _ hsteps, toList_apply batch step (Ne.symm hstep)]
    cases hreported : step.reported? <;> simp [hreported]

-- ---------------------------------------------------------------------------
-- Whole runs
-- ---------------------------------------------------------------------------

theorem run_concat (steps : List BatchStep) (step : BatchStep) :
    run (steps ++ [step]) = step.apply (run steps) := by
  rw [run, List.foldl_append]
  rfl

/-- A batch holds what was reported since it was started, in the order of the reports. -/
theorem toList_run (steps : List BatchStep) :
    (run steps).toList = BatchStep.sinceRenewal steps := by
  -- by the last step, which either adds to the list or forgets all of it
  induction steps using List.reverseRecOn with
  | nil => rfl
  | append_singleton steps step ih =>
    rw [run_concat, BatchStep.sinceRenewal, List.rtakeWhile_concat]
    by_cases hrenew : step = .renew
    · subst hrenew
      rfl
    · rw [toList_apply _ step hrenew, ih, BatchStep.sinceRenewal]
      cases hreported : step.reported? <;> simp [hrenew, hreported]

theorem growsTo_run (steps : List BatchStep) {more : List BatchStep} (h : .renew ∉ more) :
    (run steps).GrowsTo (run (steps ++ more)) := by
  refine growsTo_of_isPrefix ?_
  have hmore : run (steps ++ more) = more.foldl BatchStep.apply (run steps) :=
    List.foldl_append
  rw [hmore, toList_foldl _ h]
  exact List.prefix_append _ _

-- ---------------------------------------------------------------------------
-- Queries
-- ---------------------------------------------------------------------------

/-- Every diagnostic is fatal, a warning or an information, and only one of these. -/
theorem countP_severities (reported : List Diagnostic) :
    reported.countP Diagnostic.isFatal + reported.countP (·.severity = .warning)
      + reported.countP (·.severity = .info) = reported.length := by
  induction reported with
  | nil => rfl
  | cons diagnostic reported ih =>
    have hone : (if diagnostic.isFatal then 1 else 0)
        + (if diagnostic.severity = .warning then 1 else 0)
        + (if diagnostic.severity = .info then 1 else 0) = 1 := by
      rw [Diagnostic.isFatal]
      cases diagnostic.severity <;> rfl
    simp only [List.countP_cons, List.length_cons, decide_eq_true_eq]
    omega

theorem answers (batch : Batch) : batch.Answers batch.toList where
  listed := rfl
  counted := batch.length_toList.symm
  hasFatal_iff := by
    rw [hasFatal, fatalCount, List.countP_pos_iff, List.any_eq_true]
  isSome_iff := by
    rw [firstFatal?, fatalCount, List.countP_pos_iff, List.find?_isSome]
  firstFatal_iff := by
    intro diagnostic
    simpa [firstFatal?] using List.find?_eq_some_iff_append
  total := (countP_severities batch.toList).trans batch.length_toList

theorem run_answers (steps : List BatchStep) :
    (run steps).Answers (BatchStep.sinceRenewal steps) ∧
      (∀ step ∈ [.firstFatal, .list, .copy], run (steps ++ [step]) = run steps) ∧
      (∀ more, .renew ∉ more → (run steps).GrowsTo (run (steps ++ more))) ∧
      ∀ file source error, tokenize file source = .error error →
        (run (steps ++ [.scan file source])).fatalCount = (run steps).fatalCount + 1 := by
  refine ⟨toList_run steps ▸ answers (run steps), ?_, fun more h => growsTo_run steps h, ?_⟩
  · intro step hstep
    rw [run_concat]
    simp only [List.mem_cons, List.not_mem_nil, or_false] at hstep
    rcases hstep with rfl | rfl | rfl <;> rfl
  · intro file source error h
    rw [run_concat]
    exact fatalCount_scan h (run steps)

/-- A new batch behind a fatal diagnostic, then a warning, a scan that fails, a copy and a
second scan that fails. -/
theorem run_answers_renewed :
    let fault (found : Char) : LexicalError :=
      ⟨.strayCharacter found, .point none Position.start.line Position.start.column⟩
    let warning : Diagnostic := ⟨.warning, "unused variable", none, [], [], by decide⟩
    let steps : List BatchStep :=
      [.report (fault '?').toDiagnostic, .renew, .report warning, .scan none "#"]
    tokenize none "#" = .error (fault '#') ∧ tokenize none "~" = .error (fault '~') ∧
      (run steps).toList = [warning, (fault '#').toDiagnostic] ∧
      (run steps).firstFatal? = some (fault '#').toDiagnostic ∧
      run (steps ++ [.copy]) = run steps ∧
      (run (steps ++ [.copy, .scan none "~"])).firstFatal? = some (fault '#').toDiagnostic ∧
      (run (steps ++ [.scan none "~"])).fatalCount = (run steps).fatalCount + 1 := by
  intro fault warning steps
  have hsecond : tokenize none "~" = .error (fault '~') := by decide +kernel
  have hreported : BatchStep.sinceRenewal steps = [warning, (fault '#').toDiagnostic] := by
    decide +kernel
  obtain ⟨hanswers, hquiet, hgrows, hscan⟩ := run_answers steps
  rw [hreported] at hanswers
  have hfirst : (run steps).firstFatal? = some (fault '#').toDiagnostic :=
    hanswers.firstFatal_iff.mpr ⟨rfl, [warning], [], rfl, by decide⟩
  exact ⟨by decide +kernel, hsecond, hanswers.listed, hfirst, hquiet .copy (by decide),
    (hgrows _ (by decide)).firstFatal hfirst, hscan none "~" (fault '~') hsecond⟩

end Batch

end KlangFront
