import KlangFront.Proofs.Grammar

/-!
# Reading literals

`Literal.read` accepts exactly a body of the grammar with its closing quote,
whatever stands behind it (`read_eq_ok_iff`), and stops only where a literal
breaks off (`breaks_of_read`). A character that blocks the next unit is the
closing quote, a line feed, or part of an escape that is none.
-/

namespace KlangFront

theorem Quoted.canEscape_iff {quoted : Quoted} {c : Char} :
    quoted.canEscape c = true ↔ c ∈ ['n', 't', quoted.quote, '\\'] := by
  simp [canEscape, or_assoc]

theorem Grammar.LiteralUnits.append {quoted : Quoted} {first second : List Char}
    (h : LiteralUnits quoted first) (h' : LiteralUnits quoted second) :
    LiteralUnits quoted (first ++ second) := by
  induction h with
  | nil => exact h'
  | cons hunit _ ih =>
    rw [List.append_assoc]
    exact .cons hunit ih

namespace Literal

open Grammar

variable {quoted : Quoted} {text unit body rest : List Char}

-- ---------------------------------------------------------------------------
-- Units
-- ---------------------------------------------------------------------------

theorem unit?_eq_some_iff : unit? quoted text = some (unit, rest) ↔
    text = unit ++ rest ∧ LiteralUnit quoted unit := by
  constructor
  · intro h
    refine ⟨(append_of_unit? h).symm, ?_⟩
    unfold unit? at h
    split at h
    · cases h
    · next c later =>
      split at h
      · next hslash =>
        split at h
        · cases h
        · split at h
          · next hlegal => cases h; exact hslash ▸ .escape (Quoted.canEscape_iff.mp hlegal)
          · cases h
      · next hslash =>
        split at h
        · cases h
        · next hplain =>
          cases h
          rw [not_or] at hplain
          exact .plain hplain.1 hslash hplain.2
  · rintro ⟨rfl, hunit⟩
    cases hunit with
    | plain hquote hslash hfeed => simp [unit?, hslash, hquote, hfeed]
    | escape hlegal => simp [unit?, Quoted.canEscape_iff.mpr hlegal]

theorem not_literalUnit_of_unit? (hblocked : unit? quoted (unit ++ rest) = none) :
    ¬ LiteralUnit quoted unit := by
  intro hunit
  rw [unit?_eq_some_iff.mpr ⟨rfl, hunit⟩] at hblocked
  cases hblocked

/-- The accumulating loop adds a run of units to what it has passed. -/
theorem unitsFrom_eq (quoted : Quoted) (passed text : List Char) :
    ∃ body rest, unitsFrom quoted passed text = (passed.reverse ++ body, rest) ∧
      text = body ++ rest ∧ LiteralUnits quoted body ∧ unit? quoted rest = none := by
  fun_induction unitsFrom quoted passed text with
  | case1 passed text unit later hfound ih =>
    obtain ⟨body, rest, hrun, rfl, hbody, hblocked⟩ := ih
    obtain ⟨rfl, hunit⟩ := unit?_eq_some_iff.mp hfound
    exact ⟨unit ++ body, rest, by simp [hrun], by simp, .cons hunit hbody, hblocked⟩
  | case2 passed text hblocked => exact ⟨[], text, by simp, rfl, .nil, hblocked⟩

theorem unitsFrom_of_literalUnits {passed : List Char} (hbody : LiteralUnits quoted body)
    (hblocked : unit? quoted rest = none) :
    unitsFrom quoted passed (body ++ rest) = (passed.reverse ++ body, rest) := by
  induction hbody generalizing passed with
  | nil => simpa using unitsFrom_of_none hblocked
  | cons hunit _ ih =>
    rw [List.append_assoc, unitsFrom_of_unit? (unit?_eq_some_iff.mpr ⟨rfl, hunit⟩), ih]
    simp

theorem units_eq_iff : units quoted text = (body, rest) ↔
    text = body ++ rest ∧ LiteralUnits quoted body ∧ unit? quoted rest = none := by
  constructor
  · intro h
    obtain ⟨body', rest', hrun, hspec⟩ := unitsFrom_eq quoted [] text
    rw [units, hrun] at h
    cases h
    exact hspec
  · rintro ⟨rfl, hbody, hblocked⟩
    exact unitsFrom_of_literalUnits hbody hblocked

theorem exists_units (quoted : Quoted) (text : List Char) :
    ∃ run rest, text = run ++ rest ∧ LiteralUnits quoted run ∧ unit? quoted rest = none :=
  ⟨_, _, units_eq_iff.mp (Prod.eta (units quoted text)).symm⟩

/-- A run of units that cannot go on is the longest one: every other run is its beginning. -/
theorem isPrefix_of_units {run other : List Char} (hrun : LiteralUnits quoted run)
    (hblocked : unit? quoted rest = none) (hother : LiteralUnits quoted other)
    (hfront : other <+: run ++ rest) : other <+: run := by
  obtain ⟨tail, htail⟩ := hfront
  obtain ⟨more, rest', rfl, hmore, hblocked'⟩ := exists_units quoted tail
  have hwhole : units quoted (run ++ rest) = (other ++ more, rest') := by
    rw [units_eq_iff]
    exact ⟨by rw [← htail, List.append_assoc], hother.append hmore, hblocked'⟩
  have hsame : units quoted (run ++ rest) = (run, rest) := units_eq_iff.mpr ⟨rfl, hrun, hblocked⟩
  obtain ⟨rfl, -⟩ := Prod.mk.inj (hwhole.symm.trans hsame)
  exact List.prefix_append other more

theorem unit?_quote : unit? quoted (quoted.quote :: rest) = none := by
  cases quoted <;> simp [unit?, Quoted.quote]

-- ---------------------------------------------------------------------------
-- Whole literals
-- ---------------------------------------------------------------------------

theorem read_eq_ok_iff : read quoted text = .ok (body, rest) ↔
    text = body ++ quoted.quote :: rest ∧ LiteralBody quoted body := by
  constructor
  · intro h
    refine ⟨(append_of_read h).symm, ?_⟩
    cases quoted with
    | string =>
      unfold read string at h
      cases hunits : units .string text with
      | mk run after =>
        simp only [hunits] at h
        cases after with
        | nil => cases h
        | cons c later =>
          dsimp only at h
          split at h
          · cases h
            exact (units_eq_iff.mp hunits).2.1
          · cases h
    | character =>
      unfold read character at h
      cases hunit : unit? .character text with
      | none => simp only [hunit] at h; split at h <;> cases h
      | some split =>
        obtain ⟨unit, after⟩ := split
        simp only [hunit] at h
        cases after with
        | nil => cases h
        | cons c later =>
          dsimp only at h
          split at h
          · cases h
            exact (unit?_eq_some_iff.mp hunit).2
          · split at h <;> cases h
  · rintro ⟨rfl, hbody⟩
    cases quoted with
    | string =>
      have hunits : units .string (body ++ '"' :: rest) = (body, '"' :: rest) :=
        units_eq_iff.mpr ⟨rfl, hbody, unit?_quote⟩
      simp [read, string, Quoted.quote, hunits]
    | character =>
      have hunit : unit? .character (body ++ '\'' :: rest) = some (body, '\'' :: rest) :=
        unit?_eq_some_iff.mpr ⟨rfl, hbody⟩
      simp [read, character, Quoted.quote, hunit]

theorem behind_behind (stop : Stop) (first second : List Char) :
    (stop.behind second).behind first = stop.behind (first ++ second) := by
  simp [Stop.behind]

/-- Where no unit can be read and the closing quote does not stand either, the
obstacle says what breaks the literal off. -/
theorem breaks_of_obstacle (hblocked : unit? quoted text = none)
    (hquote : text.head? ≠ some quoted.quote) (hbody : Opened quoted body) :
    ∃ rest, text = (obstacle quoted text).passed ++ rest ∧
      ((obstacle quoted text).behind (quoted.quote :: body)).Breaks rest := by
  cases text with
  | nil =>
    refine ⟨[], rfl, ?_⟩
    simpa [obstacle, Stop.behind] using Stop.Breaks.unterminated hbody (.inl rfl)
  | cons c later =>
    by_cases hslash : c = '\\'
    · subst hslash
      cases later with
      | nil => exact ⟨[], rfl, Stop.Breaks.unterminated hbody (.inr rfl)⟩
      | cons letter after =>
        by_cases hfeed : letter = '\n'
        · subst hfeed
          exact ⟨'\n' :: after, rfl, Stop.Breaks.lineBreak hbody (.inr rfl)⟩
        · have hillegal : letter ∉ ['n', 't', quoted.quote, '\\'] := by
            intro hlegal
            simp [unit?, Quoted.canEscape_iff.mpr hlegal] at hblocked
          refine ⟨letter :: after, ?_, ?_⟩
          · simp [obstacle, hfeed]
          · simpa [obstacle, hfeed, Stop.behind] using Stop.Breaks.badEscape hbody hfeed hillegal
    · have hfeed : c = '\n' := by
        have hother : c ≠ quoted.quote := by simpa using hquote
        simpa [unit?, hslash, hother] using hblocked
      subst hfeed
      refine ⟨'\n' :: later, rfl, ?_⟩
      simpa [obstacle, Stop.behind] using Stop.Breaks.lineBreak hbody (.inl rfl)

theorem breaks_of_read {stop : Stop} (h : read quoted text = .error stop) :
    ∃ rest, text = stop.passed ++ rest ∧ (stop.behind [quoted.quote]).Breaks rest := by
  cases quoted with
  | string =>
    unfold read string at h
    cases hunits : units .string text with
    | mk run after =>
      obtain ⟨rfl, hrun, hblocked⟩ := units_eq_iff.mp hunits
      simp only [hunits] at h
      have hquote : after.head? ≠ some '"' := by
        rintro hquote
        obtain ⟨later, rfl⟩ := List.head?_eq_some_iff.mp hquote
        simp at h
      have hstop : stop = (obstacle .string after).behind run := by
        cases after with
        | nil => cases h; rfl
        | cons c later =>
          dsimp only at h
          split at h
          · cases h
          · cases h; rfl
      obtain ⟨rest, hsplit, hbreaks⟩ := breaks_of_obstacle hblocked hquote hrun
      subst hstop
      refine ⟨rest, ?_, ?_⟩
      · simpa [Stop.behind] using hsplit
      · rw [behind_behind]
        exact hbreaks
  | character =>
    unfold read character at h
    cases hunit : unit? .character text with
    | some split =>
      obtain ⟨unit, after⟩ := split
      obtain ⟨rfl, hvalid⟩ := unit?_eq_some_iff.mp hunit
      simp only [hunit] at h
      cases after with
      | nil => cases h; exact ⟨[], rfl, .unclosedCharacter hvalid (by simp)⟩
      | cons c later =>
        dsimp only at h
        split at h
        · cases h
        · next hquote =>
          split at h
          · next hfeed => cases h; exact ⟨c :: later, rfl, .unclosedCharacter hvalid (by simpa)⟩
          · next hfeed => cases h; exact ⟨c :: later, rfl, .crowdedCharacter hvalid hquote hfeed⟩
    | none =>
      simp only [hunit] at h
      split at h
      · next hquote =>
        obtain ⟨later, rfl⟩ := List.head?_eq_some_iff.mp hquote
        cases h
        exact ⟨'\'' :: later, rfl, .emptyCharacter⟩
      · next hquote =>
        cases h
        exact breaks_of_obstacle hunit hquote rfl

end Literal

end KlangFront
