import KlangFront.Diagnostic.Draft
import Mathlib.Data.List.Basic

/-!
# What a draft becomes

A diagnostic is made in steps. `DraftStep.lastPrimary`, `DraftStep.secondaries` and
`DraftStep.noteContents` say what a list of steps asks for, each of them for one kind of
step and without regard to the others. As long as no note is empty, this is what the draft
has in addition after the steps (`Draft.Gains`), and the first step with an empty note ends
the making of the diagnostic. The message of the diagnostic has its turn behind all steps:
`Diagnostic.assemble_spec`.
-/

namespace KlangFront

/-- A step in the making of a diagnostic. The note of a step is made when the step is taken,
from its message and possibly a place. -/
inductive DraftStep
  | primary (span : Span)
  | secondary (span : Span)
  | note (message : String) (span : Option Span)
  | noteMessage (message : String)
  deriving DecidableEq

namespace DraftStep

def amendment : DraftStep → Except TextError Amendment
  | primary span => .ok (.primary span)
  | secondary span => .ok (.secondary span)
  | note message span => do
    let note ← Note.ofMessage message
    return .note (span.elim note note.at)
  | noteMessage message => .ok (.noteMessage message)

def take (draft : Draft) (step : DraftStep) : Except TextError Draft := do
  let amendment ← step.amendment
  draft.amend amendment

-- What steps ask for

def primary? : DraftStep → Option Span
  | primary span => some span
  | _ => none

def secondary? : DraftStep → Option Span
  | secondary span => some span
  | _ => none

/-- The message and the place of the note of a step. -/
def noteContent? : DraftStep → Option (String × Option Span)
  | note message span => some (message, span)
  | noteMessage message => some (message, none)
  | _ => none

/-- Whether the note of a step, if it has one, says something. -/
def IsFine (step : DraftStep) : Prop := ∀ content ∈ step.noteContent?, content.1 ≠ ""

def lastPrimary (steps : List DraftStep) : Option Span := (steps.filterMap primary?).getLast?

def secondaries (steps : List DraftStep) : List Span := steps.filterMap secondary?

def noteContents (steps : List DraftStep) : List (String × Option Span) :=
  steps.filterMap noteContent?

end DraftStep

/-- The diagnostic that is made by steps, taken from the first to the last. -/
def Diagnostic.assemble (severity : Severity) (message : String) (steps : List DraftStep) :
    Except TextError Diagnostic := do
  let draft ← steps.foldlM DraftStep.take (.start severity message)
  draft.finish

def Note.content (note : Note) : String × Option Span := (note.message, note.span)

open DraftStep (lastPrimary secondaries noteContents)

/-- A draft later on, with what the steps in between ask for. -/
structure Draft.Gains (steps : List DraftStep) (draft later : Draft) : Prop where
  severity : later.severity = draft.severity
  message : later.message = draft.message
  primary : later.primary = (lastPrimary steps).or draft.primary
  secondary : later.secondary = draft.secondary ++ secondaries steps
  notes : later.notes.map Note.content = draft.notes.map Note.content ++ noteContents steps

/-- The result of making a diagnostic by steps. -/
inductive DraftStep.Makes (severity : Severity) (message : String) (steps : List DraftStep) :
    Except TextError Diagnostic → Prop
  /-- The first step with an empty note ends it, whatever follows and whatever the message. -/
  | emptyNote {before after : List DraftStep} {step : DraftStep}
      (split : steps = before ++ step :: after) (fine : ∀ earlier ∈ before, earlier.IsFine)
      (empty : ¬step.IsFine) : Makes severity message steps (.error .emptyNote)
  | emptyMessage (fine : ∀ step ∈ steps, step.IsFine) (empty : message = "") :
      Makes severity message steps (.error .emptyMessage)
  | made {d : Diagnostic} (fine : ∀ step ∈ steps, step.IsFine) (nonempty : message ≠ "")
      (hseverity : d.severity = severity) (hmessage : d.message = message)
      (hprimary : d.primary = lastPrimary steps) (hsecondary : d.secondary = secondaries steps)
      (hnotes : d.notes.map Note.content = noteContents steps) :
      Makes severity message steps (.ok d)

-- ---------------------------------------------------------------------------
-- One step
-- ---------------------------------------------------------------------------

theorem Note.ofMessage_of_ne {message : String} (h : message ≠ "") :
    Note.ofMessage message = .ok ⟨message, none, h⟩ := dif_neg h

theorem Note.content_injective : Function.Injective Note.content := by
  rintro ⟨message, span, _⟩ ⟨other, place, _⟩ h
  cases h
  rfl

theorem Note.ofMessage_eq_ok_iff {message : String} {note : Note} :
    Note.ofMessage message = .ok note ↔ message ≠ "" ∧ note.content = (message, none) := by
  by_cases h : message = ""
  · subst h
    simp [Note.ofMessage]
  · rw [Note.ofMessage_of_ne h, Except.ok.injEq, ← Note.content_injective.eq_iff]
    simp [h, Note.content, eq_comm]

namespace DraftStep

variable {step : DraftStep} {steps : List DraftStep}

/-- A step without an empty note adds to a draft what it asks for. -/
theorem take_of_fine (h : step.IsFine) (draft : Draft) :
    ∃ later, take draft step = .ok later ∧ draft.Gains [step] later := by
  cases step with
  | primary span =>
    exact ⟨_, rfl, rfl, rfl, rfl, (List.append_nil _).symm, (List.append_nil _).symm⟩
  | secondary span => exact ⟨_, rfl, rfl, rfl, rfl, rfl, (List.append_nil _).symm⟩
  | note message span =>
    have hmessage : message ≠ "" := h _ rfl
    refine ⟨{ draft with notes := draft.notes ++ [⟨message, span, hmessage⟩] }, ?_, rfl, rfl, rfl,
      (List.append_nil _).symm, List.map_append⟩
    rw [take, amendment, Note.ofMessage_of_ne hmessage]
    cases span <;> rfl
  | noteMessage message =>
    have hmessage : message ≠ "" := h _ rfl
    refine ⟨{ draft with notes := draft.notes ++ [⟨message, none, hmessage⟩] }, ?_, rfl, rfl, rfl,
      (List.append_nil _).symm, List.map_append⟩
    change (Note.ofMessage message >>= fun note =>
      Except.ok { draft with notes := draft.notes ++ [note] }) = _
    rw [Note.ofMessage_of_ne hmessage]
    rfl

theorem take_of_not_fine (h : ¬step.IsFine) (draft : Draft) :
    take draft step = .error .emptyNote := by
  cases step with
  | primary | secondary => exact absurd (fun _ hnone => nomatch hnone) h
  | note message span | noteMessage message =>
    obtain rfl : message = "" := by simpa [IsFine, noteContent?] using h
    rfl

-- ---------------------------------------------------------------------------
-- Many steps
-- ---------------------------------------------------------------------------

theorem lastPrimary_cons (step : DraftStep) (steps : List DraftStep) :
    lastPrimary (step :: steps) = (lastPrimary steps).or (lastPrimary [step]) := by
  rw [lastPrimary, ← List.singleton_append, List.filterMap_append, List.getLast?_append]
  rfl

theorem gains_nil (draft : Draft) : draft.Gains [] draft :=
  ⟨rfl, rfl, rfl, (List.append_nil _).symm, (List.append_nil _).symm⟩

theorem gains_cons {draft middle later : Draft} (hfirst : draft.Gains [step] middle)
    (hrest : middle.Gains steps later) : draft.Gains (step :: steps) later where
  severity := hrest.severity.trans hfirst.severity
  message := hrest.message.trans hfirst.message
  primary := by rw [hrest.primary, hfirst.primary, lastPrimary_cons step steps, Option.or_assoc]
  secondary := by
    rw [hrest.secondary, hfirst.secondary, List.append_assoc, secondaries, secondaries,
      ← List.filterMap_append]
    rfl
  notes := by
    rw [hrest.notes, hfirst.notes, List.append_assoc, noteContents, noteContents,
      ← List.filterMap_append]
    rfl

/-- Steps without an empty note add up. -/
theorem foldlM_of_fine (h : ∀ step ∈ steps, step.IsFine) (draft : Draft) :
    ∃ later, steps.foldlM take draft = .ok later ∧ draft.Gains steps later := by
  induction steps generalizing draft with
  | nil => exact ⟨draft, rfl, gains_nil draft⟩
  | cons step steps ih =>
    obtain ⟨hstep, hsteps⟩ := List.forall_mem_cons.mp h
    obtain ⟨middle, htake, hfirst⟩ := take_of_fine hstep draft
    obtain ⟨later, hfold, hrest⟩ := ih hsteps middle
    refine ⟨later, ?_, gains_cons hfirst hrest⟩
    rw [List.foldlM_cons, htake]
    exact hfold

theorem foldlM_of_not_fine {before : List DraftStep} (hbefore : ∀ earlier ∈ before, earlier.IsFine)
    (h : ¬step.IsFine) (after : List DraftStep) (draft : Draft) :
    (before ++ step :: after).foldlM take draft = .error .emptyNote := by
  obtain ⟨middle, hfold, -⟩ := foldlM_of_fine hbefore draft
  rw [List.foldlM_append, hfold]
  change (step :: after).foldlM take middle = _
  rw [List.foldlM_cons, take_of_not_fine h]
  rfl

instance : DecidablePred IsFine := fun step =>
  decidable_of_iff (step.noteContent?.all (·.1 ≠ "")) (by simp [IsFine, Option.all_eq_true])

/-- Either no step has an empty note, or there is a first one that has. -/
theorem fine_or_split (steps : List DraftStep) : (∀ step ∈ steps, step.IsFine) ∨
    ∃ before step after, steps = before ++ step :: after ∧
      (∀ earlier ∈ before, earlier.IsFine) ∧ ¬step.IsFine := by
  induction steps with
  | nil => exact .inl (by simp)
  | cons first steps ih =>
    by_cases hfirst : first.IsFine
    · rcases ih with hsteps | ⟨before, step, after, rfl, hbefore, hstep⟩
      · exact .inl (List.forall_mem_cons.mpr ⟨hfirst, hsteps⟩)
      · exact .inr ⟨first :: before, step, after, rfl,
          List.forall_mem_cons.mpr ⟨hfirst, hbefore⟩, hstep⟩
    · exact .inr ⟨[], first, steps, rfl, by simp, hfirst⟩

/-- Whether some note is empty can be seen from what the steps ask for. -/
theorem fine_iff :
    (∀ step ∈ steps, step.IsFine) ↔ ∀ content ∈ noteContents steps, content.1 ≠ "" := by
  simp only [IsFine, noteContents, List.mem_filterMap, Option.mem_def]
  constructor
  · rintro h content ⟨step, hmem, hcontent⟩
    exact h step hmem content hcontent
  · intro h step hmem content hcontent
    exact h content ⟨step, hmem, hcontent⟩

-- ---------------------------------------------------------------------------
-- What is made
-- ---------------------------------------------------------------------------

variable {severity : Severity} {message : String} {result other : Except TextError Diagnostic}

theorem assemble_makes (severity : Severity) (message : String) (steps : List DraftStep) :
    Makes severity message steps (Diagnostic.assemble severity message steps) := by
  rcases fine_or_split steps with hfine | ⟨before, step, after, rfl, hbefore, hstep⟩
  · obtain ⟨later, hfold, hgains⟩ := foldlM_of_fine hfine (.start severity message)
    have hassemble : Diagnostic.assemble severity message steps = later.finish := by
      rw [Diagnostic.assemble, hfold]
      rfl
    have hmessage : later.message = message := hgains.message
    by_cases hempty : message = ""
    · rw [hassemble, Draft.finish, dif_pos (hmessage.trans hempty)]
      exact .emptyMessage hfine hempty
    · rw [hassemble, Draft.finish, dif_neg (hmessage ▸ hempty)]
      exact .made hfine hempty hgains.severity hmessage (hgains.primary.trans (Option.or_none))
        hgains.secondary hgains.notes
  · rw [Diagnostic.assemble, foldlM_of_not_fine hbefore hstep]
    exact .emptyNote rfl hbefore hstep

theorem Makes.unique (h : Makes severity message steps result)
    (h' : Makes severity message steps other) : other = result := by
  -- the conditions of the three rules exclude each other, so only the same rule can apply twice
  cases h with
  | emptyNote split fine empty =>
    cases h' with
    | emptyNote => rfl
    | emptyMessage fine' | made fine' => exact absurd (fine' _ (by simp [split])) empty
  | emptyMessage fine empty =>
    cases h' with
    | emptyNote split' _ empty' => exact absurd (fine _ (by simp [split'])) empty'
    | emptyMessage => rfl
    | made _ nonempty' => exact absurd empty nonempty'
  | made fine nonempty hseverity hmessage hprimary hsecondary hnotes =>
    cases h' with
    | emptyNote split' _ empty' => exact absurd (fine _ (by simp [split'])) empty'
    | emptyMessage _ empty' => exact absurd empty' nonempty
    | @made other _ _ hseverity' hmessage' hprimary' hsecondary' hnotes' =>
      have hcontents :=
        List.map_injective_iff.mpr Note.content_injective (hnotes'.trans hnotes.symm)
      obtain ⟨_, _, _, _, _, _⟩ := other
      cases hseverity'.trans hseverity.symm
      cases hmessage'.trans hmessage.symm
      cases hprimary'.trans hprimary.symm
      cases hsecondary'.trans hsecondary.symm
      cases hcontents
      rfl

theorem Makes.exists_ok_iff (h : Makes severity message steps result) :
    (∃ d, result = .ok d) ↔ message ≠ "" ∧ ∀ step ∈ steps, step.IsFine := by
  cases h with
  | emptyNote split _ empty =>
    have hsome : ¬∀ step ∈ steps, step.IsFine := fun fine => empty (fine _ (by simp [split]))
    simp [hsome]
  | emptyMessage _ empty => simp [empty]
  | made fine nonempty => exact ⟨fun _ => ⟨nonempty, fine⟩, fun _ => ⟨_, rfl⟩⟩

theorem assemble_eq_iff :
    Diagnostic.assemble severity message steps = result ↔ Makes severity message steps result := by
  constructor
  · rintro rfl
    exact assemble_makes severity message steps
  · intro h
    exact h.unique (assemble_makes severity message steps)

/-- What is made depends on what the steps ask for and not on their order otherwise. -/
theorem Makes.interleave {others : List DraftStep}
    (hprimary : lastPrimary others = lastPrimary steps)
    (hsecondary : secondaries others = secondaries steps)
    (hnotes : noteContents others = noteContents steps) (h : Makes severity message steps result) :
    Makes severity message others result := by
  have hfine : (∀ step ∈ others, step.IsFine) ↔ ∀ step ∈ steps, step.IsFine := by
    rw [fine_iff, fine_iff, hnotes]
  cases h with
  | emptyNote split fine empty =>
    rcases fine_or_split others with hothers | ⟨before, step, after, rfl, hbefore, hstep⟩
    · exact absurd (hfine.mp hothers _ (by simp [split])) empty
    -- the first empty note may be another one, but the failure does not tell which it was
    · exact .emptyNote rfl hbefore hstep
  | emptyMessage fine empty => exact .emptyMessage (hfine.mpr fine) empty
  | made fine nonempty hseverity hmessage hp hs hn =>
    exact .made (hfine.mpr fine) nonempty hseverity hmessage (hp.trans hprimary.symm)
      (hs.trans hsecondary.symm) (hn.trans hnotes.symm)

end DraftStep

/-- The step that an amendment comes from. -/
def Amendment.step : Amendment → DraftStep
  | primary span => .primary span
  | secondary span => .secondary span
  | note made => .note made.message made.span
  | noteMessage message => .noteMessage message

theorem Amendment.take_step (draft : Draft) (amendment : Amendment) :
    DraftStep.take draft amendment.step = draft.amend amendment := by
  cases amendment with
  | primary | secondary | noteMessage => rfl
  | note made =>
    obtain ⟨message, span, hmessage⟩ := made
    rw [step, DraftStep.take, DraftStep.amendment, Note.ofMessage_of_ne hmessage]
    cases span <;> rfl

theorem Diagnostic.build_eq_assemble (severity : Severity) (message : String)
    (amendments : List Amendment) :
    build severity message amendments
      = assemble severity message (amendments.map Amendment.step) := by
  have htake : (fun draft amendment => DraftStep.take draft (Amendment.step amendment))
      = Draft.amend := funext fun draft => funext fun amendment => amendment.take_step draft
  rw [build, assemble, List.foldlM_map, htake]

/-- A diagnostic is made by steps if no note and not its message is empty. It has the last
primary place, the secondary places and the notes that the steps ask for, in their order, so
steps of different kinds may change places. The first step with an empty note fails, and the
steps before it do not, whatever follows and whatever the message; an empty message is
noticed behind all steps. Making a diagnostic by amendments is a case of this, and a note is
only made of a message that is not empty. -/
theorem Diagnostic.assemble_spec (severity : Severity) (message : String)
    (steps : List DraftStep) :
    (∀ result, assemble severity message steps = result ↔
      DraftStep.Makes severity message steps result) ∧
    ((∃ d, assemble severity message steps = .ok d) ↔
      message ≠ "" ∧ ∀ step ∈ steps, step.IsFine) ∧
    (∀ others, lastPrimary others = lastPrimary steps → secondaries others = secondaries steps →
      noteContents others = noteContents steps →
        assemble severity message others = assemble severity message steps) ∧
    (∀ before step after, steps = before ++ step :: after →
      (∀ earlier ∈ before, earlier.IsFine) → ¬step.IsFine →
        ∃ draft, before.foldlM DraftStep.take (.start severity message) = .ok draft ∧
          step.take draft = .error .emptyNote ∧
          ∀ text others, assemble severity text (before ++ step :: others) = .error .emptyNote) ∧
    (∀ amendments, build severity message amendments
      = assemble severity message (amendments.map Amendment.step)) ∧
    ∀ text note, Note.ofMessage text = .ok note ↔ text ≠ "" ∧ note.content = (text, none) := by
  have hmakes := DraftStep.assemble_makes severity message steps
  refine ⟨fun _ => DraftStep.assemble_eq_iff, hmakes.exists_ok_iff, ?_, ?_,
    build_eq_assemble severity message, fun _ _ => Note.ofMessage_eq_ok_iff⟩
  · intro others hprimary hsecondary hnotes
    exact DraftStep.assemble_eq_iff.mpr (hmakes.interleave hprimary hsecondary hnotes)
  · rintro before step after - hbefore hstep
    obtain ⟨draft, hdraft, -⟩ := DraftStep.foldlM_of_fine hbefore (.start severity message)
    exact ⟨draft, hdraft, DraftStep.take_of_not_fine hstep draft, fun text others =>
      DraftStep.assemble_eq_iff.mpr (.emptyNote rfl hbefore hstep)⟩

/-- Steps in two orders, of which the first one replaces a primary place in between, and two
empty notes behind a right one, with an empty message. -/
theorem Diagnostic.assemble_spec_interleaved :
    let place (line : Nat) : Span := .point (some "a.k") (.clamp line) (.clamp 1)
    let steps : List DraftStep := [.primary (place 1), .noteMessage "declared here",
      .secondary (place 2), .primary (place 3), .note "imported here" (some (place 4)),
      .secondary (place 5)]
    let others : List DraftStep := [.note "declared here" none, .secondary (place 2),
      .secondary (place 5), .note "imported here" (some (place 4)), .primary (place 3)]
    let d : Diagnostic := ⟨.warning, "unused", some (place 3), [place 2, place 5],
      [⟨"declared here", none, by decide⟩, ⟨"imported here", some (place 4), by decide⟩],
      by decide⟩
    assemble .warning "unused" steps = .ok d ∧ assemble .warning "unused" others = .ok d ∧
      assemble .warning "" [.noteMessage "declared here", .note "" (some (place 1)),
        .noteMessage ""] = .error .emptyNote := by
  intro place steps others d
  obtain ⟨hmade, -, hothers, -, -, -⟩ := assemble_spec .warning "unused" steps
  have hsteps : assemble .warning "unused" steps = .ok d :=
    (hmade _).mpr (.made (by decide) (by decide) rfl rfl rfl rfl rfl)
  obtain ⟨-, -, -, hfirst, -, -⟩ := assemble_spec .warning ""
    [.noteMessage "declared here", .note "" (some (place 1)), .noteMessage ""]
  obtain ⟨draft, -, -, hempty⟩ := hfirst [.noteMessage "declared here"]
    (.note "" (some (place 1))) [.noteMessage ""] rfl (by decide) (by decide)
  exact ⟨hsteps, (hothers others rfl rfl rfl).trans hsteps, hempty "" [.noteMessage ""]⟩

end KlangFront
