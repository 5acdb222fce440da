import KlangFront.Terminal.Style

/-!
# Escape sequences in painted text

`Escape.IsSequence` is the form of the sequences that set styles, `Escape.stripped`
deletes them from a text, and `Escape.Closed` says that no style is left on at the end
of a line. `Escape.Painted` builds a painted text next to its plain text, a character
or a sequence at a time, and keeps track of whether a style may be on. What painting
does to a text is read off from it by induction.
-/

namespace KlangFront.Escape

/-- Whether a character may stand among the parameters of a sequence. -/
def isParameter (c : Char) : Bool := c.isDigit || c == ';'

/-- A sequence that sets styles, or turns them off. -/
def IsSequence (text : List Char) : Prop :=
  ∃ parameters : List Char, parameters.all isParameter ∧
    text = '\x1b' :: '[' :: (parameters ++ ['m'])

/-- What is behind the sequence that a text starts with, if it starts with one. -/
def behind? : List Char → Option (List Char)
  | '\x1b' :: '[' :: rest =>
    match rest.dropWhile isParameter with
    | 'm' :: behind => some behind
    | _ => none
  | _ => none

theorem behind?_eq_some_iff {text rest : List Char} :
    behind? text = some rest ↔ ∃ sequence, IsSequence sequence ∧ text = sequence ++ rest := by
  constructor
  · intro h
    unfold behind? at h
    split at h
    next tail =>
      split at h
      next behind hdrop =>
        cases h
        have htail := List.takeWhile_append_dropWhile (p := isParameter) (l := tail)
        rw [hdrop] at htail
        refine ⟨_, ⟨tail.takeWhile isParameter, List.all_takeWhile, rfl⟩, ?_⟩
        simp [htail]
      next => cases h
    next => cases h
  · rintro ⟨_, ⟨parameters, hparameters, rfl⟩, rfl⟩
    have hm : isParameter 'm' = false := by decide
    have hdrop : (parameters ++ 'm' :: rest).dropWhile isParameter = 'm' :: rest := by
      rw [List.dropWhile_append_of_pos (List.all_eq_true.mp hparameters),
        List.dropWhile_cons_of_neg (by simp [hm])]
    simp [behind?, hdrop]

theorem length_lt_of_behind? {text rest : List Char} (h : behind? text = some rest) :
    rest.length < text.length := by
  obtain ⟨_, ⟨parameters, -, rfl⟩, rfl⟩ := behind?_eq_some_iff.mp h
  simp only [List.length_append, List.length_cons]
  omega

/-- A text without the sequences in it. -/
def stripped (text : List Char) : List Char :=
  match _h : behind? text with
  | some rest => stripped rest
  | none =>
    match text with
    | [] => []
    | c :: rest => c :: stripped rest
termination_by text.length
decreasing_by
  · exact length_lt_of_behind? _h
  · simp

/-- Every sequence that turns a style on is followed on its line by the one that turns all
styles off. -/
def Closed (text : List Char) : Prop :=
  ∀ before sequence after, text = before ++ sequence ++ after → IsSequence sequence →
    sequence ≠ Style.reset.toList → Style.reset.toList <:+: after.takeWhile (· ≠ '\n')

/-- A painted text and its plain text. `isOn` says whether a style may be on where the
text starts; none is where it ends. -/
inductive Painted : (isOn : Bool) → (text plain : List Char) → Prop
  | nil : Painted false [] []
  | char {isOn : Bool} {c : Char} {text plain : List Char} (hescape : c ≠ '\x1b')
      (hline : isOn → c ≠ '\n') (h : Painted isOn text plain) :
      Painted isOn (c :: text) (c :: plain)
  | style {isOn : Bool} {sequence text plain : List Char} (hsequence : IsSequence sequence)
      (h : Painted true text plain) : Painted isOn (sequence ++ text) plain
  | reset {isOn : Bool} {text plain : List Char} (h : Painted false text plain) :
      Painted isOn (Style.reset.toList ++ text) plain

-- ---------------------------------------------------------------------------
-- Sequences
-- ---------------------------------------------------------------------------

theorem isSequence_reset : IsSequence Style.reset.toList :=
  ⟨['0'], rfl, rfl⟩

theorem isSequence_sequence (style : Style) : IsSequence style.sequence.toList := by
  cases style with
  | bold => exact ⟨['1'], rfl, rfl⟩
  | muted => exact ⟨"38;2;209;209;209".toList, rfl, rfl⟩
  | error => exact ⟨"38;2;127;0;31".toList, rfl, rfl⟩
  | warning => exact ⟨"38;2;255;165;0".toList, rfl, rfl⟩
  | info => exact ⟨"38;2;100;149;237".toList, rfl, rfl⟩

namespace IsSequence

variable {sequence : List Char}

/-- A sequence has one escape character, which is its first, and no line end. -/
theorem eq_cons (h : IsSequence sequence) :
    ∃ tail, sequence = '\x1b' :: tail ∧ '\x1b' ∉ tail ∧ '\n' ∉ tail := by
  obtain ⟨parameters, hparameters, rfl⟩ := h
  have hparameter (c : Char) (hc : c ∈ parameters) : isParameter c :=
    List.all_eq_true.mp hparameters c hc
  have hescape : '\x1b' ∉ parameters := fun hc => absurd (hparameter _ hc) (by decide)
  have hfeed : '\n' ∉ parameters := fun hc => absurd (hparameter _ hc) (by decide)
  exact ⟨_, rfl, by simpa using hescape, by simpa using hfeed⟩

theorem lineFeed_not_mem (h : IsSequence sequence) : '\n' ∉ sequence := by
  obtain ⟨tail, rfl, -, hfeed⟩ := h.eq_cons
  simpa using hfeed

theorem behind?_append (h : IsSequence sequence) (rest : List Char) :
    behind? (sequence ++ rest) = some rest :=
  behind?_eq_some_iff.mpr ⟨sequence, h, rfl⟩

/-- A sequence does not end the line that it is on. -/
theorem takeWhile_append (h : IsSequence sequence) (rest : List Char) :
    (sequence ++ rest).takeWhile (· ≠ '\n') = sequence ++ rest.takeWhile (· ≠ '\n') := by
  refine List.takeWhile_append_of_pos fun c hc => ?_
  simpa using ne_of_mem_of_not_mem hc h.lineFeed_not_mem

/-- Two sequences at the start of one text are the same. -/
theorem append_inj {other rest behind : List Char} (h : IsSequence sequence)
    (hother : IsSequence other) (htext : sequence ++ rest = other ++ behind) :
    sequence = other ∧ rest = behind := by
  obtain rfl : rest = behind := by
    have hbehind := h.behind?_append rest
    rw [htext, hother.behind?_append behind] at hbehind
    exact (Option.some.inj hbehind).symm
  exact ⟨List.append_cancel_right htext, rfl⟩

/-- A sequence in a text that starts with a sequence is that one or stands behind it. -/
theorem eq_or_behind {other before rest after : List Char} (h : IsSequence sequence)
    (hother : IsSequence other) (htext : sequence ++ rest = before ++ other ++ after) :
    (sequence = other ∧ rest = after) ∨ ∃ between, rest = between ++ other ++ after := by
  rw [List.append_assoc] at htext
  obtain ⟨between, -, hrest⟩ | ⟨overlap, hsequence, hother'⟩ := List.append_eq_append_iff.mp htext
  · exact .inr ⟨between, by rw [hrest, List.append_assoc]⟩
  · cases before with
    | nil => exact .inl (append_inj h hother htext)
    | cons first before =>
      -- The other sequence would start inside of this one, unless nothing is left of it.
      obtain ⟨tail, htail, hescape, -⟩ := h.eq_cons
      obtain ⟨otherTail, hotherTail, -⟩ := hother.eq_cons
      obtain rfl : overlap = [] := by
        cases overlap with
        | nil => rfl
        | cons c overlap =>
          simp only [hotherTail, List.cons_append, List.cons.injEq] at hother'
          simp only [hsequence, List.cons_append, List.cons.injEq] at htail
          simp [← htail.2, ← hother'.1] at hescape
      exact .inr ⟨[], by simpa using hother'.symm⟩

end IsSequence

theorem stripped_nil : stripped [] = [] := by
  rw [stripped]
  rfl

theorem stripped_cons {c : Char} (hescape : c ≠ '\x1b') (rest : List Char) :
    stripped (c :: rest) = c :: stripped rest := by
  have hbehind : behind? (c :: rest) = none := by
    rw [Option.eq_none_iff_forall_ne_some]
    intro behind h
    obtain ⟨sequence, hsequence, htext⟩ := behind?_eq_some_iff.mp h
    obtain ⟨tail, rfl, -⟩ := hsequence.eq_cons
    exact hescape (List.cons.inj htext).1
  rw [stripped]
  split <;> simp_all

theorem stripped_append {sequence : List Char} (h : IsSequence sequence) (rest : List Char) :
    stripped (sequence ++ rest) = stripped rest := by
  have hbehind := h.behind?_append rest
  rw [stripped]
  split <;> simp_all

-- ---------------------------------------------------------------------------
-- Painted text
-- ---------------------------------------------------------------------------

namespace Painted

variable {isOn : Bool} {text plain : List Char}

theorem stripped_eq (h : Painted isOn text plain) : stripped text = plain := by
  induction h with
  | nil => exact stripped_nil
  | char hescape _ _ ih => rw [stripped_cons hescape, ih]
  | style hsequence _ ih => rw [stripped_append hsequence, ih]
  | reset _ ih => rw [stripped_append isSequence_reset, ih]

theorem escape_not_mem (h : Painted isOn text plain) : '\x1b' ∉ plain := by
  induction h with
  | nil => exact List.not_mem_nil
  | char hescape _ _ ih => exact List.not_mem_cons_of_ne_of_not_mem hescape.symm ih
  | style _ _ ih => exact ih
  | reset _ ih => exact ih

/-- Where a style may be on, the line goes on to the end of all styles. -/
theorem reset_infix (h : Painted isOn text plain) (hon : isOn = true) :
    Style.reset.toList <:+: text.takeWhile (· ≠ '\n') := by
  induction h with
  | nil => cases hon
  | char _ hline _ ih =>
    rw [List.takeWhile_cons_of_pos (by simpa using hline hon)]
    exact (ih hon).trans (List.suffix_cons _ _).isInfix
  | style hsequence _ ih =>
    rw [hsequence.takeWhile_append]
    exact (ih rfl).trans (List.suffix_append _ _).isInfix
  | reset _ _ =>
    rw [isSequence_reset.takeWhile_append]
    exact (List.prefix_append _ _).isInfix

theorem closed (h : Painted isOn text plain) : Closed text := by
  induction h with
  | nil =>
    intro before sequence after htext hsequence
    obtain ⟨tail, rfl, -⟩ := hsequence.eq_cons
    simp at htext
  | char hescape _ _ ih =>
    intro before sequence after htext hsequence hstyle
    cases before with
    | nil =>
      obtain ⟨tail, rfl, -⟩ := hsequence.eq_cons
      exact absurd (List.cons.inj htext).1 hescape
    | cons first before => exact ih before sequence after (List.cons.inj htext).2 hsequence hstyle
  | style hfirst hpainted ih =>
    intro before sequence after htext hsequence hstyle
    obtain ⟨-, rfl⟩ | ⟨between, hbetween⟩ := hfirst.eq_or_behind hsequence htext
    · exact hpainted.reset_infix rfl
    · exact ih between sequence after hbetween hsequence hstyle
  | reset _ ih =>
    intro before sequence after htext hsequence hstyle
    obtain ⟨hreset, -⟩ | ⟨between, hbetween⟩ := isSequence_reset.eq_or_behind hsequence htext
    · exact absurd hreset.symm hstyle
    · exact ih between sequence after hbetween hsequence hstyle

theorem append (h : Painted isOn text plain) {more morePlain : List Char}
    (hmore : Painted false more morePlain) : Painted isOn (text ++ more) (plain ++ morePlain) := by
  induction h with
  | nil => exact hmore
  | char hescape hline _ ih => exact .char hescape hline ih
  | style hsequence _ ih =>
    rw [List.append_assoc]
    exact .style hsequence ih
  | reset _ ih =>
    rw [List.append_assoc]
    exact .reset ih

/-- Characters in front of a painted text. -/
theorem chars {characters : List Char} (hescape : '\x1b' ∉ characters)
    (hline : isOn → '\n' ∉ characters) (h : Painted isOn text plain) :
    Painted isOn (characters ++ text) (characters ++ plain) := by
  induction characters with
  | nil => exact h
  | cons c characters ih =>
    rw [List.mem_cons, not_or] at hescape
    exact .char (Ne.symm hescape.1) (fun hon hc => hline hon (by simp [hc]))
      (ih hescape.2 fun hon hmem => hline hon (List.mem_cons_of_mem c hmem))

/-- Styles that are turned on in front of a text where one may be on. -/
theorem styles (h : Painted true text plain) (styles : List Style) :
    Painted true ((styles.map Style.sequence).flatMap String.toList ++ text) plain := by
  induction styles with
  | nil => exact h
  | cons first rest ih =>
    rw [List.map_cons, List.flatMap_cons, List.append_assoc]
    exact .style (isSequence_sequence first) ih

end Painted

end KlangFront.Escape
