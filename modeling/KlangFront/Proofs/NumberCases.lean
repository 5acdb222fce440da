import KlangFront.Proofs.Rounds

/-!
# The cases of a number

What a scan comes to at a digit is decided part by part. The digits are taken as far as
they go; a point is taken if a digit follows it, and is a fault if not; an underscore
likewise; and then an alphabetic character is a fault. `Grammar.NumberCase` lists these
cases for any text, and `Scan.reads_numbers` says what each comes to.

In a text of digits, points and underscores numbers stand next to points and names
only. `Grammar.NumericSplit` cuts such a text up to its end or to its first fault. It is
what the scan does (`NumericSplit.scan`), so there is no second way to cut it.
-/

namespace KlangFront

namespace Grammar

/-- One digit or more, with all the digits there are at the front of a text. -/
structure DigitRun (run rest : List Char) : Prop where
  digits : Digits run
  maximal : ∀ c ∈ rest.head?, c.isDigit = false

/-- What is taken at a mark: nothing where it does not come next, and otherwise the mark
and all the digits behind it. -/
inductive GroupRun (mark : Char) : List Char → List Char → Prop
  | absent {rest : List Char} : rest.head? ≠ some mark → GroupRun mark [] rest
  | present {run rest : List Char} : DigitRun run rest → GroupRun mark (mark :: run) rest

/-- How far the number at the front of a text goes, what stands behind that, and the fault
if the number breaks off there. -/
inductive NumberCase : List Char → List Char → Option Fault → Prop
  | missingFraction {whole rest : List Char} : DigitRun whole ('.' :: rest) →
      (∀ c ∈ rest.head?, c.isDigit = false) →
      NumberCase whole ('.' :: rest) (some .missingFraction)
  | missingGroup {whole fraction rest : List Char} : DigitRun whole (fraction ++ '_' :: rest) →
      GroupRun '.' fraction ('_' :: rest) → (∀ c ∈ rest.head?, c.isDigit = false) →
      NumberCase (whole ++ fraction) ('_' :: rest) (some .missingGroup)
  | wordAfterNumber {whole fraction last rest : List Char} {c : Char} :
      DigitRun whole (fraction ++ (last ++ c :: rest)) →
      GroupRun '.' fraction (last ++ c :: rest) → GroupRun '_' last (c :: rest) →
      isAlphabetic c = true →
      NumberCase (whole ++ fraction ++ last) (c :: rest) (some .wordAfterNumber)
  | number {whole fraction last rest : List Char} : DigitRun whole (fraction ++ (last ++ rest)) →
      GroupRun '.' fraction (last ++ rest) → GroupRun '_' last rest →
      (∀ c ∈ rest.head?, isAlphabetic c = false) →
      NumberCase (whole ++ fraction ++ last) rest none

variable {mark c : Char} {text run rest part whole fraction last number consumed later : List Char}
  {outcome : Option Fault}

-- ---------------------------------------------------------------------------
-- Parts of a number
-- ---------------------------------------------------------------------------

theorem exists_digitRun (hdigit : ∃ c ∈ text.head?, c.isDigit = true) :
    ∃ run rest, text = run ++ rest ∧ DigitRun run rest := by
  obtain ⟨hsplit, -, hover⟩ := Number.digits_eq_iff.mp ⟨rfl, rfl⟩
  exact ⟨_, _, hsplit, Number.digits_of_head hdigit, hover⟩

/-- At a mark a text goes on with a group, or the mark has no digit behind it. -/
theorem groupRun_or_missing (mark : Char) (text : List Char) :
    (∃ part rest, text = part ++ rest ∧ GroupRun mark part rest) ∨
      ∃ rest, text = mark :: rest ∧ ∀ c ∈ rest.head?, c.isDigit = false := by
  cases text with
  | nil => exact .inl ⟨[], [], rfl, .absent (by simp)⟩
  | cons c later =>
    by_cases hmark : c = mark
    · subst hmark
      by_cases hdigit : ∃ d ∈ later.head?, d.isDigit = true
      · obtain ⟨run, rest, rfl, hrun⟩ := exists_digitRun hdigit
        exact .inl ⟨c :: run, rest, rfl, .present hrun⟩
      · exact .inr ⟨later, rfl, fun d hd => by simpa using fun h => hdigit ⟨d, hd, h⟩⟩
    · exact .inl ⟨[], c :: later, rfl, .absent (by simpa using hmark)⟩

theorem GroupRun.digitGroup (h : GroupRun mark part rest) : DigitGroup mark part := by
  cases h with
  | absent _ => exact .inl rfl
  | present hrun => exact .inr ⟨_, hrun.digits, rfl⟩

theorem GroupRun.ends (h : GroupRun mark part rest) : Number.GroupEnds mark part rest := by
  intro c hc
  cases h with
  | absent hother =>
    rw [if_pos rfl]
    rintro rfl
    exact hother hc
  | present hrun => simpa using hrun.maximal c hc

theorem number_of_runs (hwhole : DigitRun whole (fraction ++ (last ++ rest)))
    (hfraction : GroupRun '.' fraction (last ++ rest)) (hlast : GroupRun '_' last rest) :
    Number (whole ++ fraction ++ last) :=
  ⟨whole, fraction, last, hwhole.digits, hfraction.digitGroup, hlast.digitGroup, rfl⟩

-- ---------------------------------------------------------------------------
-- Cases of a number
-- ---------------------------------------------------------------------------

theorem exists_numberCase (hdigit : ∃ c ∈ text.head?, c.isDigit = true) :
    ∃ consumed rest outcome, text = consumed ++ rest ∧ NumberCase consumed rest outcome := by
  obtain ⟨whole, text, rfl, hwhole⟩ := exists_digitRun hdigit
  obtain ⟨fraction, text, rfl, hfraction⟩ | ⟨rest, rfl, hnone⟩ := groupRun_or_missing '.' text
  · obtain ⟨last, rest, rfl, hlast⟩ | ⟨rest, rfl, hnone⟩ := groupRun_or_missing '_' text
    · by_cases hword : ∃ c ∈ rest.head?, isAlphabetic c = true
      · obtain ⟨c, hc, hword⟩ := hword
        obtain ⟨later, rfl⟩ := List.head?_eq_some_iff.mp hc
        exact ⟨_, _, _, by simp, .wordAfterNumber hwhole hfraction hlast hword⟩
      · have hother : ∀ c ∈ rest.head?, isAlphabetic c = false :=
          fun c hc => by simpa using fun h => hword ⟨c, hc, h⟩
        exact ⟨_, _, _, by simp, .number hwhole hfraction hlast hother⟩
    · exact ⟨_, _, _, by simp, .missingGroup hwhole hfraction hnone⟩
  · exact ⟨_, _, _, rfl, .missingFraction hwhole hnone⟩

theorem NumberCase.breaks {fault : Fault} (h : NumberCase consumed rest (some fault)) :
    Stop.Breaks ⟨fault, consumed⟩ rest := by
  cases h with
  | missingFraction hwhole hnone => exact .missingFraction hwhole.digits hnone
  | missingGroup hwhole hfraction hnone =>
    exact .missingGroup hwhole.digits hfraction.digitGroup hnone
  | wordAfterNumber hwhole hfraction hlast hword =>
    exact .wordAfterNumber (number_of_runs hwhole hfraction hlast) hword

theorem NumberCase.wellFormed (h : NumberCase consumed rest none) : Number consumed := by
  cases h with
  | number hwhole hfraction hlast _ => exact number_of_runs hwhole hfraction hlast

theorem NumberCase.endsBefore (h : NumberCase consumed rest none) :
    (Piece.lexeme (.number consumed)).EndsBefore rest := by
  cases h with
  | number hwhole hfraction hlast hother =>
    refine (Number.endsAt_iff hwhole.digits hfraction.digitGroup hlast.digitGroup).mpr
      ⟨?_, hfraction.ends, hlast.ends, hother⟩
    simpa using hwhole.maximal

theorem NumberCase.head_isDigit (h : NumberCase consumed rest outcome) :
    ∃ c later, consumed = c :: later ∧ c.isDigit = true := by
  obtain ⟨whole, after, rfl, hsome, hall⟩ : ∃ whole after, consumed = whole ++ after ∧
      Digits whole := by
    cases h with
    | missingFraction hwhole _ => exact ⟨_, [], (List.append_nil _).symm, hwhole.digits⟩
    | missingGroup hwhole _ _ => exact ⟨_, _, rfl, hwhole.digits⟩
    | wordAfterNumber hwhole _ _ _ | number hwhole _ _ _ =>
      exact ⟨_, _, List.append_assoc _ _ _, hwhole.digits⟩
  obtain ⟨c, later, rfl⟩ := List.exists_cons_of_ne_nil hsome
  exact ⟨c, later ++ after, rfl, hall c List.mem_cons_self⟩

/-- What the reader gives in a case. -/
def numberReading (consumed rest : List Char) : Option Fault → Reading Piece
  | none => .ok (.lexeme (.number consumed), rest)
  | some fault => .error ⟨fault, consumed⟩

theorem NumberCase.read (h : NumberCase consumed rest outcome) : ∃ c later,
    consumed ++ rest = c :: later ∧ Piece.read c later = numberReading consumed rest outcome := by
  obtain ⟨c, later, hcons, -⟩ := h.head_isDigit
  have hsplit : c :: (later ++ rest) = consumed ++ rest := by rw [hcons, List.cons_append]
  refine ⟨c, later ++ rest, hsplit.symm, ?_⟩
  cases outcome with
  | none => exact Piece.read_eq_ok_iff.mpr ⟨hsplit, h.wellFormed, h.endsBefore⟩
  | some fault => exact Piece.read_eq_error_iff.mpr ⟨rest, hsplit, h.breaks⟩

/-- No text has two cases. -/
theorem NumberCase.unique {consumed' rest' : List Char} {outcome' : Option Fault}
    (h : NumberCase consumed rest outcome) (h' : NumberCase consumed' rest' outcome')
    (hsame : consumed ++ rest = consumed' ++ rest') :
    consumed = consumed' ∧ rest = rest' ∧ outcome = outcome' := by
  obtain ⟨c, later, hsplit, hread⟩ := h.read
  obtain ⟨c', later', hsplit', hread'⟩ := h'.read
  obtain ⟨rfl, rfl⟩ := List.cons.inj (hsplit.symm.trans (hsame.trans hsplit'))
  -- the reader gives one answer, and each case can be told from its answer
  have hanswer := hread.symm.trans hread'
  have hconsumed : consumed = consumed' ∧ outcome = outcome' := by
    cases outcome <;> cases outcome' <;> cases hanswer <;> exact ⟨rfl, rfl⟩
  obtain ⟨rfl, rfl⟩ := hconsumed
  exact ⟨rfl, List.append_cancel_left hsame, rfl⟩

/-- A number has one point and one underscore at most. -/
theorem Number.count_marks_le (h : Number number) :
    number.count '.' ≤ 1 ∧ number.count '_' ≤ 1 := by
  have honce : ∀ marks ∈ [[], ['.'], ['_'], ['.', '_']],
      marks.count '.' ≤ 1 ∧ marks.count '_' ≤ 1 := by decide
  have hcount (mark : Char) (hmark : (!mark.isDigit) = true) :
      (number.filter (!·.isDigit)).count mark = number.count mark :=
    List.count_filter (p := fun c : Char => !c.isDigit) hmark
  rw [← hcount '.' rfl, ← hcount '_' rfl]
  exact honce _ (KlangFront.Number.marks_of_number h)

-- ---------------------------------------------------------------------------
-- Texts of digits, points and underscores
-- ---------------------------------------------------------------------------

def NumericText (text : List Char) : Prop :=
  ∀ c ∈ text, c.isDigit = true ∨ c = '.' ∨ c = '_'

/-- How a text falls into numbers, points and names, and what breaks it off if anything does. -/
inductive NumericSplit : List Char → List Lexeme → Option Stop → Prop
  | done : NumericSplit [] [] none
  | point {rest : List Char} {units : List Lexeme} {stop : Option Stop} :
      NumericSplit rest units stop → NumericSplit ('.' :: rest) (.symbol .dot :: units) stop
  | name {run rest : List Char} {units : List Lexeme} {stop : Option Stop} :
      (∀ c ∈ run, c.isDigit = true ∨ c = '_') → (∀ c ∈ rest.head?, c = '.') →
      NumericSplit rest units stop →
      NumericSplit ('_' :: run ++ rest) (.identifier ('_' :: run) :: units) stop
  | number {consumed rest : List Char} {units : List Lexeme} {stop : Option Stop} :
      NumberCase consumed rest none → NumericSplit rest units stop →
      NumericSplit (consumed ++ rest) (.number consumed :: units) stop
  | fault {consumed rest : List Char} {fault : Fault} : NumberCase consumed rest (some fault) →
      NumericSplit (consumed ++ rest) [] (some ⟨fault, consumed⟩)

/-- In a row of lexemes a number has each mark once at most, and is followed only by a point
that it has no place for or by a name that starts with an underscore it has no place for. -/
structure MarksOnce (units : List Lexeme) : Prop where
  once : ∀ {number : List Char}, .number number ∈ units →
    number.count '.' ≤ 1 ∧ number.count '_' ≤ 1
  behind : ∀ {number : List Char} {next : Lexeme}, [.number number, next] <:+: units →
    (next = .symbol .dot ∧ ('.' ∈ number ∨ '_' ∈ number)) ∨
      ∃ run, next = .identifier ('_' :: run) ∧ '_' ∈ number

variable {units units' : List Lexeme} {stop stop' : Option Stop}

theorem NumericText.exists_name (h : NumericText text) : ∃ run rest, text = run ++ rest ∧
    (∀ c ∈ run, c.isDigit = true ∨ c = '_') ∧ ∀ c ∈ rest.head?, c = '.' := by
  let inName (c : Char) : Bool := c.isDigit || c == '_'
  obtain ⟨hsplit, hrun, hover⟩ : text = text.takeWhile inName ++ text.dropWhile inName ∧
      (∀ c ∈ text.takeWhile inName, inName c = true) ∧
      ∀ c ∈ (text.dropWhile inName).head?, inName c = false := run_eq_iff.mp ⟨rfl, rfl⟩
  refine ⟨_, _, hsplit, fun c hc => by simpa [inName] using hrun c hc, fun c hc => ?_⟩
  obtain ⟨hdigit, hbar⟩ : c.isDigit = false ∧ c ≠ '_' := by simpa [inName] using hover c hc
  have hmem : c ∈ text := (List.dropWhile_suffix inName).mem (List.mem_of_mem_head? hc)
  rcases h c hmem with hdigit' | hdot | hbar'
  · rw [hdigit] at hdigit'
    cases hdigit'
  · exact hdot
  · exact absurd hbar' hbar

theorem exists_numericSplit (text : List Char) (h : NumericText text) :
    ∃ units stop, NumericSplit text units stop := by
  cases text with
  | nil => exact ⟨[], none, .done⟩
  | cons c later =>
    obtain ⟨hc, hlater⟩ := List.forall_mem_cons.mp h
    rcases hc with hdigit | rfl | rfl
    · have hhead : ∃ d ∈ (c :: later).head?, d.isDigit = true := ⟨c, rfl, hdigit⟩
      obtain ⟨consumed, rest, outcome, hsplit, hcase⟩ := exists_numberCase hhead
      rw [hsplit] at h ⊢
      cases outcome with
      | some fault => exact ⟨[], _, .fault hcase⟩
      | none =>
        have hrest : NumericText rest := fun d hd => h d (List.mem_append_right consumed hd)
        -- a number has a digit at least, so the rest is a shorter text
        have hshorter : rest.length < (c :: later).length := by
          obtain ⟨d, tail, rfl, -⟩ := hcase.head_isDigit
          rw [hsplit, List.length_append, List.length_cons]
          omega
        obtain ⟨units, stop, hunits⟩ := exists_numericSplit rest hrest
        exact ⟨_, stop, .number hcase hunits⟩
    · obtain ⟨units, stop, hunits⟩ := exists_numericSplit later hlater
      exact ⟨_, stop, .point hunits⟩
    · obtain ⟨run, rest, rfl, hrun, hover⟩ := NumericText.exists_name hlater
      have hrest : NumericText rest := fun d hd => hlater d (List.mem_append_right run hd)
      obtain ⟨units, stop, hunits⟩ := exists_numericSplit rest hrest
      exact ⟨_, stop, .name hrun hover hunits⟩
termination_by text.length

-- ---------------------------------------------------------------------------
-- The scan of such a text
-- ---------------------------------------------------------------------------

theorem isWordPart_of_numeric {c : Char} (h : c.isDigit = true ∨ c = '_') :
    isWordPart c = true := by
  rcases h with hdigit | rfl
  · exact isWordPart_of_isDigit hdigit
  · decide

theorem read_point (rest : List Char) :
    Piece.read '.' rest = .ok (.lexeme (.symbol .dot), rest) := by
  refine Piece.read_eq_ok_iff.mpr ⟨rfl, trivial, fun c _ => ?_⟩
  refine (Symbol.endsAt_of_char (c := '.') rfl fun h => absurd h (by decide)).mpr ?_
  cases hpair : Symbol.ofPair? '.' c with
  | none => rfl
  | some sign =>
    have hspelled := Symbol.ofPair?_eq_some_iff.mp hpair
    cases sign <;> cases hspelled

theorem read_name (hrun : ∀ c ∈ run, c.isDigit = true ∨ c = '_')
    (hover : ∀ c ∈ rest.head?, c = '.') :
    Piece.read '_' (run ++ rest) = .ok (.lexeme (.identifier ('_' :: run)), rest) := by
  refine Piece.read_eq_ok_iff.mpr ⟨rfl, ⟨.inl ?_, ?_⟩, fun c hc => ?_⟩
  · exact ⟨'_', run, rfl, by decide, fun c hc => isWordPart_of_numeric (hrun c hc)⟩
  · intro reserved hsame
    cases reserved <;> cases hsame
  · rw [hover c hc]
    show isWordPart '.' = false
    decide

/-- Such a text is cut the way the scan of it goes. -/
theorem NumericSplit.scan (h : NumericSplit text units stop) :
    Scan.of text = ⟨units.map .lexeme, stop⟩ := by
  induction h with
  | done => exact Scan.of_nil
  | point _ ih => rw [Scan.of_cons_of_read (read_point _), ih, List.map_cons]
  | name hrun hover _ ih =>
    rw [List.cons_append, Scan.of_cons_of_read (read_name hrun hover), ih, List.map_cons]
  | number hcase _ ih =>
    obtain ⟨c, later, hsplit, hread⟩ := hcase.read
    rw [hsplit, Scan.of_cons_of_read hread, ih, List.map_cons]
  | fault hcase =>
    obtain ⟨c, later, hsplit, hread⟩ := hcase.read
    rw [hsplit, Scan.of_cons_of_stop hread, List.map_nil]

theorem NumericSplit.unique (h : NumericSplit text units stop)
    (h' : NumericSplit text units' stop') : units = units' ∧ stop = stop' := by
  obtain ⟨hpieces, hstop⟩ := Scan.mk.inj (h.scan.symm.trans h'.scan)
  have hinj : Function.Injective Piece.lexeme := fun _ _ => Piece.lexeme.inj
  exact ⟨hinj.list_map hpieces, hstop⟩

theorem NumericSplit.head {next : Lexeme} (h : NumericSplit text (next :: units) stop) :
    (∃ c ∈ text.head?, c.isDigit = true) ∨ (text.head? = some '.' ∧ next = .symbol .dot) ∨
      (text.head? = some '_' ∧ ∃ run, next = .identifier ('_' :: run)) := by
  cases h with
  | point _ => exact .inr (.inl ⟨rfl, rfl⟩)
  | name _ _ _ => exact .inr (.inr ⟨rfl, _, rfl⟩)
  | number hcase _ =>
    obtain ⟨c, later, rfl, hc⟩ := hcase.head_isDigit
    exact .inl ⟨c, rfl, hc⟩

theorem NumberCase.next {next : Lexeme} (h : NumberCase consumed rest none)
    (hnext : NumericSplit rest (next :: units) stop) :
    (next = .symbol .dot ∧ ('.' ∈ consumed ∨ '_' ∈ consumed)) ∨
      ∃ run, next = .identifier ('_' :: run) ∧ '_' ∈ consumed := by
  rcases hnext.head with ⟨c, hc, hdigit⟩ | ⟨hdot, rfl⟩ | ⟨hbar, run, rfl⟩
  · obtain ⟨hother, -⟩ := h.endsBefore c hc
    rw [hdigit] at hother
    cases hother
  · obtain ⟨-, -, hpoint, -⟩ := h.endsBefore '.' hdot
    exact .inl ⟨rfl, hpoint rfl⟩
  · obtain ⟨-, -, -, hunderscore⟩ := h.endsBefore '_' hbar
    exact .inr ⟨run, rfl, hunderscore rfl⟩

theorem NumericSplit.marksOnce (h : NumericSplit text units stop) : MarksOnce units where
  once := by
    intro number hnumber
    induction h with
    | done | fault _ => cases hnumber
    | point _ ih | name _ _ _ ih =>
      rcases List.mem_cons.mp hnumber with hsame | hlater
      · cases hsame
      · exact ih hlater
    | number hcase _ ih =>
      rcases List.mem_cons.mp hnumber with hsame | hlater
      · cases hsame
        exact hcase.wellFormed.count_marks_le
      · exact ih hlater
  behind := by
    intro number next hpair
    induction h with
    | done | fault _ => simp at hpair
    | point _ ih | name _ _ _ ih =>
      rcases List.infix_cons_iff.mp hpair with hfront | hlater
      · simp at hfront
      · exact ih hlater
    | @number consumed rest units stop hcase hunits ih =>
      rcases List.infix_cons_iff.mp hpair with hfront | hlater
      · obtain ⟨tail, hfront⟩ := hfront
        cases hfront
        exact hcase.next hunits
      · exact ih hlater

end Grammar

-- ---------------------------------------------------------------------------
-- What the cases come to
-- ---------------------------------------------------------------------------

namespace Scan

/-- What becomes of a number, by its case. -/
def NumberEnd (file : Option String) (source : String) (stage : Stage)
    (consumed rest : List Char) : Option Fault → Prop
  | some fault => FailsAt file source (stage.offset + consumed.length) fault
  | none => GoesOn file source.toList stage (stage.past file (.lexeme (.number consumed))) ∧
      Grammar.Longest Grammar.Number consumed (consumed ++ rest)

/-- What becomes of a source of digits, points and underscores, by how it is cut. -/
def NumericEnd (file : Option String) (source : String) (units : List Lexeme) :
    Option Stop → Prop
  | some stop =>
    FailsAt file source (units.flatMap Lexeme.text ++ stop.passed).length stop.fault
  | none => ∃ tokens, tokenize file source = .ok tokens ∧
      tokens.map Token.entry = units.map Lexeme.entry ++ [(.endOfInput, none)]

variable {file : Option String} {source : String} {stage : Stage}
  {text consumed rest : List Char} {outcome : Option Fault}

theorem StandsAt.numberEnd (h : StandsAt file source.toList stage)
    (hrest : source.toList.drop stage.offset = consumed ++ rest)
    (hcase : Grammar.NumberCase consumed rest outcome) :
    NumberEnd file source stage consumed rest outcome := by
  cases outcome with
  | some fault => exact h.failsAt hrest hcase.breaks
  | none =>
    refine ⟨h.goesOn hrest hcase.wellFormed hcase.endsBefore, hcase.wellFormed,
      List.prefix_append consumed rest, fun {other} hother hfront => ?_⟩
    obtain ⟨c, later, -, hread⟩ := hcase.read
    exact Piece.longest_of_read hread (.lexeme (.number other)) hother hfront

theorem numericEnd {units : List Lexeme} {stop : Option Stop}
    (h : Grammar.NumericSplit source.toList units stop) : NumericEnd file source units stop := by
  have hscan := h.scan
  cases stop with
  | some stop =>
    obtain ⟨rest, hbroken⟩ := of_eq_breaksOff_iff.mp hscan
    have hfails : FailsAt file source _ stop.fault := failsAt_of_breaksOff hbroken
    rw [List.flatMap_map] at hfails
    exact hfails
  | none =>
    have htiles := of_eq_complete_iff.mp hscan
    refine ⟨_, tokenize_eq_ok_iff.mpr ⟨_, htiles, rfl⟩, ?_⟩
    have hunits : (units.map Piece.lexeme).filterMap Piece.lexeme? = units := by
      rw [List.filterMap_map]
      exact List.filterMap_some
    rw [(htiles.lossless _).entries, hunits]

theorem reads_numbers (file : Option String) (source : String) :
    (∀ stage, StandsAt file source.toList stage →
      (∃ c ∈ (source.toList.drop stage.offset).head?, c.isDigit = true) →
      ∃ consumed rest outcome, source.toList.drop stage.offset = consumed ++ rest ∧
        Grammar.NumberCase consumed rest outcome ∧
        NumberEnd file source stage consumed rest outcome ∧
        ∀ consumed' rest' outcome', consumed ++ rest = consumed' ++ rest' →
          Grammar.NumberCase consumed' rest' outcome' →
          consumed = consumed' ∧ rest = rest' ∧ outcome = outcome') ∧
    (Grammar.NumericText source.toList → ∃ units stop,
      Grammar.NumericSplit source.toList units stop ∧ NumericEnd file source units stop ∧
        Grammar.MarksOnce units ∧
        ∀ units' stop', Grammar.NumericSplit source.toList units' stop' →
          units = units' ∧ stop = stop') := by
  constructor
  · intro stage h hdigit
    obtain ⟨consumed, rest, outcome, hrest, hcase⟩ := Grammar.exists_numberCase hdigit
    exact ⟨consumed, rest, outcome, hrest, hcase, h.numberEnd hrest hcase,
      fun _ _ _ hsame hother => hcase.unique hother hsame⟩
  · intro hnumeric
    obtain ⟨units, stop, hsplit⟩ := Grammar.exists_numericSplit source.toList hnumeric
    exact ⟨units, stop, hsplit, numericEnd hsplit, hsplit.marksOnce,
      fun _ _ hother => hsplit.unique hother⟩

/-- An underscore with a letter behind it, and a number with both marks before another
underscore and another point. -/
theorem reads_numbers_marked :
    let stage : Stage := ⟨1, ⟨0, 1⟩, [.ofLexeme none ⟨0, 0⟩ (.symbol .plus)]⟩
    StandsAt none "+1.5_é".toList stage ∧ FailsAt none "+1.5_é" 4 .missingGroup ∧
      Grammar.NumericText "1.2_3_4.5".toList ∧
      ∃ tokens, tokenize none "1.2_3_4.5" = .ok tokens ∧
        tokens.map Token.entry = [(.number, some "1.2_3"), (.identifier, some "_4"),
          (.symbol .dot, none), (.number, some "5"), (.endOfInput, none)] := by
  intro stage
  have hrun {d : Char} (hd : d.isDigit = true) {rest : List Char}
      (hover : ∀ c ∈ rest.head?, c.isDigit = false) : Grammar.DigitRun [d] rest :=
    ⟨⟨by simp, by simpa using hd⟩, hover⟩
  have hsign : Reaches "+1.5_é".toList [.lexeme (.symbol .plus)] ['1', '.', '5', '_', 'é'] :=
    Reaches.round (c := '+') .start (by decide +kernel)
  have h : StandsAt none "+1.5_é".toList stage := ⟨_, _, hsign, by decide +kernel, rfl⟩
  have hrest : "+1.5_é".toList.drop stage.offset = (['1'] ++ ['.', '5']) ++ ['_', 'é'] := by
    decide +kernel
  have hbroken : Grammar.NumberCase (['1'] ++ ['.', '5']) ['_', 'é'] (some .missingGroup) :=
    .missingGroup (hrun rfl (by simp)) (.present (hrun rfl (by simp))) (by simp)
  obtain ⟨_, _, _, hsplit, -, hend, honly⟩ :=
    (reads_numbers none "+1.5_é").1 stage h ⟨'1', by decide +kernel, rfl⟩
  obtain ⟨rfl, rfl, rfl⟩ := honly _ _ _ (hsplit.symm.trans hrest) hbroken
  have hsource : "1.2_3_4.5".toList = ['1', '.', '2', '_', '3', '_', '4', '.', '5'] := by
    decide +kernel
  have hnumeric : Grammar.NumericText "1.2_3_4.5".toList := by
    simp [Grammar.NumericText, hsource]
  have hwhole : Grammar.NumberCase (['1'] ++ ['.', '2'] ++ ['_', '3']) ['_', '4', '.', '5'] none :=
    .number (hrun rfl (by simp)) (.present (hrun rfl (by simp))) (.present (hrun rfl (by simp)))
      fun c hc => by
        obtain rfl : '_' = c := by simpa using hc
        decide
  have hlast : Grammar.NumberCase (['5'] ++ [] ++ []) [] none :=
    .number (hrun rfl (by simp)) (.absent (by simp)) (.absent (by simp)) (by simp)
  have hcut : Grammar.NumericSplit "1.2_3_4.5".toList [.number ['1', '.', '2', '_', '3'],
      .identifier ['_', '4'], .symbol .dot, .number ['5']] none := by
    have hfour : ∀ c ∈ ['4'], c.isDigit = true ∨ c = '_' := by simp
    rw [hsource]
    exact .number hwhole (.name hfour (by simp) (.point (.number hlast .done)))
  obtain ⟨_, _, -, hout, -, hsole⟩ := (reads_numbers none "1.2_3_4.5").2 hnumeric
  obtain ⟨rfl, rfl⟩ := hsole _ _ hcut
  exact ⟨h, hend, hnumeric, hout⟩

end Scan

end KlangFront
