import KlangFront.Proofs.CharacterClass
import KlangFront.Proofs.Grammar

/-!
# Reading numbers

`Number.read` accepts exactly the numbers of the grammar, up to where they end
(`read_eq_ok_iff`), and stops only where a mark has no digit behind it or an
alphabetic character follows (`breaks_of_read`). A group of digits is the step
that the fraction and the last group share.
-/

namespace KlangFront.Number

variable {text part rest number : List Char} {mark : Char} {fault : Fault}

-- ---------------------------------------------------------------------------
-- Digits and groups
-- ---------------------------------------------------------------------------

theorem digits_eq_iff : (digits text = part ∧ afterDigits text = rest) ↔
    text = part ++ rest ∧ (∀ c ∈ part, c.isDigit = true) ∧ ∀ c ∈ rest.head?, c.isDigit = false :=
  run_eq_iff

theorem digits_eq_nil_iff : digits text = [] ↔ ∀ c ∈ text.head?, c.isDigit = false := by
  cases text with
  | nil => simp [digits]
  | cons c later => simp [digits, List.takeWhile_cons]

theorem digits_of_head (h : ∃ c ∈ text.head?, c.isDigit = true) : Grammar.Digits (digits text) := by
  refine ⟨fun hnone => ?_, (digits_eq_iff.mp ⟨rfl, rfl⟩).2.1⟩
  obtain ⟨c, hc, hd⟩ := h
  exact absurd (digits_eq_nil_iff.mp hnone c hc) (by simp [hd])

/-- The characters that may follow a group: where there is no group its mark does
not come next, and where there is one it has no further digit. -/
def GroupEnds (mark : Char) (part rest : List Char) : Prop :=
  ∀ c ∈ rest.head?, if part = [] then c ≠ mark else c.isDigit = false

theorem group_eq_ok_iff : group mark fault text = .ok (part, rest) ↔
    text = part ++ rest ∧ Grammar.DigitGroup mark part ∧ GroupEnds mark part rest := by
  constructor
  · intro h
    refine ⟨(append_of_group h).symm, ?_⟩
    cases text with
    | nil => cases h; exact ⟨.inl rfl, by simp [GroupEnds]⟩
    | cons c later =>
      simp only [group] at h
      split at h
      · next hmark =>
        split at h
        · cases h
        · next hsome =>
          cases h
          obtain ⟨-, hall, hend⟩ := digits_eq_iff.mp ⟨rfl, rfl⟩
          exact ⟨.inr ⟨_, ⟨hsome, hall⟩, by rw [hmark]⟩, by simpa [GroupEnds] using hend⟩
      · next hother => cases h; exact ⟨.inl rfl, by simpa [GroupEnds] using hother⟩
  · rintro ⟨rfl, rfl | ⟨ds, ⟨hsome, hall⟩, rfl⟩, hend⟩
    · cases rest with
      | nil => rfl
      | cons c later => simp [group, show c ≠ mark by simpa [GroupEnds] using hend]
    · obtain ⟨hds, hrest⟩ := digits_eq_iff.mpr ⟨rfl, hall, by simpa [GroupEnds] using hend⟩
      simp [group, hds, hrest, hsome]

theorem group_eq_error_iff {stop : Stop} : group mark fault text = .error stop ↔
    stop = ⟨fault, []⟩ ∧ ∃ later, text = mark :: later ∧ ∀ c ∈ later.head?, c.isDigit = false := by
  constructor
  · intro h
    cases text with
    | nil => cases h
    | cons c later =>
      simp only [group] at h
      split at h
      · next hmark =>
        split at h
        · next hnone => cases h; exact ⟨rfl, later, by rw [hmark], digits_eq_nil_iff.mp hnone⟩
        · cases h
      · cases h
  · rintro ⟨rfl, later, rfl, hnone⟩
    simp [group, digits_eq_nil_iff.mpr hnone]

-- ---------------------------------------------------------------------------
-- Whole numbers
-- ---------------------------------------------------------------------------

theorem not_mem_of_digits {c : Char} (h : c.isDigit = false)
    (hall : ∀ d ∈ text, d.isDigit = true) : c ∉ text := by
  intro hc
  rw [hall c hc] at h
  cases h

/-- Where a number ends, reader by reader: behind its last part nothing that
would go on with that part comes next, nor anything that a skipped part starts with. -/
theorem endsAt_iff {whole fraction last : List Char} (hw : Grammar.Digits whole)
    (hf : Grammar.DigitGroup '.' fraction) (hl : Grammar.DigitGroup '_' last) :
    (∀ c ∈ rest.head?, (Lexeme.number (whole ++ fraction ++ last)).EndsAt c) ↔
      (∀ c ∈ (fraction ++ last ++ rest).head?, c.isDigit = false) ∧
        GroupEnds '.' fraction (last ++ rest) ∧ GroupEnds '_' last rest ∧
        ∀ c ∈ rest.head?, isAlphabetic c = false := by
  have hdot : '.' ∉ whole := not_mem_of_digits rfl hw.2
  have hbar : '_' ∉ whole := not_mem_of_digits rfl hw.2
  rcases hf with rfl | ⟨ds, ⟨hds, hd⟩, rfl⟩ <;> rcases hl with rfl | ⟨es, ⟨hes, he⟩, rfl⟩
  · simp [Lexeme.EndsAt, GroupEnds, hdot, hbar]
    grind
  · simp [Lexeme.EndsAt, GroupEnds, hdot, hbar]
    grind
  · have hbar' : '_' ∉ ds := not_mem_of_digits rfl hd
    simp [Lexeme.EndsAt, GroupEnds, hdot, hbar, hbar']
    grind
  · simp [Lexeme.EndsAt, GroupEnds, hdot, hbar]
    grind

/-- A text that is cut into the parts of a number, each as long as it can be. -/
theorem read_parts {whole fraction last : List Char} (hw : Grammar.Digits whole)
    (hf : Grammar.DigitGroup '.' fraction) (hl : Grammar.DigitGroup '_' last)
    (hwends : ∀ c ∈ (fraction ++ last ++ rest).head?, c.isDigit = false)
    (hfends : GroupEnds '.' fraction (last ++ rest)) (hlends : GroupEnds '_' last rest) :
    read (whole ++ fraction ++ last ++ rest) =
      if rest.head?.any isAlphabetic then .error ⟨.wordAfterNumber, whole ++ fraction ++ last⟩
      else .ok (whole ++ fraction ++ last, rest) := by
  obtain ⟨hdigits, hafter⟩ : digits (whole ++ fraction ++ last ++ rest) = whole ∧
      afterDigits (whole ++ fraction ++ last ++ rest) = fraction ++ (last ++ rest) :=
    digits_eq_iff.mpr ⟨by simp, hw.2, by simpa using hwends⟩
  have hfraction : group '.' .missingFraction (fraction ++ (last ++ rest))
      = .ok (fraction, last ++ rest) := group_eq_ok_iff.mpr ⟨rfl, hf, hfends⟩
  have hlast : group '_' .missingGroup (last ++ rest) = .ok (last, rest) :=
    group_eq_ok_iff.mpr ⟨rfl, hl, hlends⟩
  simp only [read, hdigits, hafter, hfraction, hlast]

theorem read_eq_ok_iff (hdigit : ∃ c ∈ text.head?, c.isDigit = true) :
    read text = .ok (number, rest) ↔ text = number ++ rest ∧ Grammar.Number number ∧
      ∀ c ∈ rest.head?, (Lexeme.number number).EndsAt c := by
  constructor
  · intro h
    refine ⟨(append_of_read h).symm, ?_⟩
    have hwhole : Grammar.Digits (digits text) := digits_of_head hdigit
    unfold read at h
    cases hfraction : group '.' .missingFraction (afterDigits text) with
    | error stop => simp [hfraction] at h
    | ok first =>
      obtain ⟨fraction, afterFraction⟩ := first
      simp only [hfraction] at h
      obtain ⟨hsplit, hf, hfends⟩ := group_eq_ok_iff.mp hfraction
      cases hlast : group '_' .missingGroup afterFraction with
      | error stop => simp [hlast] at h
      | ok second =>
        obtain ⟨last, rest⟩ := second
        simp only [hlast] at h
        obtain ⟨rfl, hl, hlends⟩ := group_eq_ok_iff.mp hlast
        split at h
        · cases h
        · next hword =>
          cases h
          refine ⟨⟨digits text, fraction, last, hwhole, hf, hl, rfl⟩, ?_⟩
          refine (endsAt_iff hwhole hf hl).mpr ⟨?_, hfends, hlends, ?_⟩
          · have hend : ∀ c ∈ (afterDigits text).head?, c.isDigit = false :=
              (digits_eq_iff.mp ⟨rfl, rfl⟩).2.2
            simpa [hsplit] using hend
          · intro c hc
            simpa [Option.mem_def.mp hc] using hword
  · rintro ⟨rfl, ⟨whole, fraction, last, hw, hf, hl, rfl⟩, hends⟩
    obtain ⟨hwends, hfends, hlends, hword⟩ := (endsAt_iff hw hf hl).mp hends
    have hnone : rest.head?.any isAlphabetic = false := by
      cases hc : rest.head? with
      | none => rfl
      | some c => exact hword c hc
    rw [read_parts hw hf hl hwends hfends hlends, hnone]
    rfl

/-- The characters of a number that are no digits: at most one point, then at
most one underscore. -/
theorem marks_of_number (h : Grammar.Number number) :
    number.filter (!·.isDigit) ∈ [[], ['.'], ['_'], ['.', '_']] := by
  have hnone : ∀ {ds : List Char}, (∀ c ∈ ds, c.isDigit = true) → ds.filter (!·.isDigit) = [] :=
    fun hall => List.filter_eq_nil_iff.mpr fun c hc => by simp [hall c hc]
  obtain ⟨whole, fraction, last, ⟨-, hw⟩, hf, hl, rfl⟩ := h
  rcases hf with rfl | ⟨ds, ⟨-, hd⟩, rfl⟩ <;> rcases hl with rfl | ⟨es, ⟨-, he⟩, rfl⟩
  · simp [hnone hw]
  · simp [hnone hw, hnone he]
  · simp [hnone hw, hnone hd]
  · simp [hnone hw, hnone hd, hnone he]

/-- A number does not go on with a character that ends it. -/
theorem not_endsAt_of_longer {d : Char} {tail : List Char} (h : Grammar.Number number)
    (hlonger : Grammar.Number (number ++ d :: tail)) : ¬ (Lexeme.number number).EndsAt d := by
  rintro ⟨hdigit, -, hdot, hbar⟩
  have hmarks := marks_of_number h
  have hmarks' := marks_of_number hlonger
  have hmem : ∀ mark ∈ ['.', '_'], mark ∈ number ↔ mark ∈ number.filter (!·.isDigit) := by
    simp
  rw [hmem '.' (by simp), hmem '_' (by simp)] at hdot
  rw [hmem '_' (by simp)] at hbar
  rw [List.filter_append, List.filter_cons_of_pos (by simp [hdigit])] at hmarks'
  generalize number.filter (!·.isDigit) = before at *
  generalize tail.filter (!·.isDigit) = behind at *
  simp only [List.mem_cons, List.not_mem_nil, or_false] at hmarks
  rcases hmarks with rfl | rfl | rfl | rfl <;> simp_all

theorem breaks_of_read {stop : Stop} (hdigit : ∃ c ∈ text.head?, c.isDigit = true)
    (h : read text = .error stop) : ∃ rest, text = stop.passed ++ rest ∧ stop.Breaks rest := by
  have hwhole := digits_of_head hdigit
  unfold read at h
  cases hfraction : group '.' .missingFraction (afterDigits text) with
  | error first =>
    obtain ⟨rfl, later, hlater, hnone⟩ := group_eq_error_iff.mp hfraction
    simp only [hfraction] at h
    cases h
    refine ⟨'.' :: later, ?_, ?_⟩
    · simpa [Stop.behind, hlater] using (append_digits text).symm
    · simpa [Stop.behind] using Stop.Breaks.missingFraction hwhole hnone
  | ok first =>
    obtain ⟨fraction, afterFraction⟩ := first
    obtain ⟨hsplit, hgroup, -⟩ := group_eq_ok_iff.mp hfraction
    have htext : text = digits text ++ fraction ++ afterFraction := by
      rw [List.append_assoc, ← hsplit, append_digits]
    simp only [hfraction] at h
    cases hlast : group '_' .missingGroup afterFraction with
    | error second =>
      obtain ⟨rfl, later, rfl, hnone⟩ := group_eq_error_iff.mp hlast
      simp only [hlast] at h
      cases h
      refine ⟨'_' :: later, ?_, ?_⟩
      · simpa [Stop.behind] using htext
      · simpa [Stop.behind] using Stop.Breaks.missingGroup hwhole hgroup hnone
    | ok second =>
      obtain ⟨last, rest⟩ := second
      obtain ⟨rfl, hgroup', -⟩ := group_eq_ok_iff.mp hlast
      simp only [hlast] at h
      split at h
      · next hword =>
        cases h
        cases rest with
        | nil => cases hword
        | cons c later =>
          refine ⟨c :: later, by simpa using htext, .wordAfterNumber ?_ (by simpa using hword)⟩
          exact ⟨digits text, fraction, last, hwhole, hgroup, hgroup', rfl⟩
      · cases h

end KlangFront.Number
