import KlangFront.Proofs.Places
import KlangFront.Proofs.Tiling

/-!
# The places of faults

A fault is reported as one point of the source. `Fault.LocatedAt` says what stands
at that point, and next to it, for each kind of fault. A broken piece behind any
text has its fault at the first character that it did not pass
(`Stop.Breaks.locatedAt`), so the report of a whole source is right about the kind
and the place of what is wrong.
-/

namespace KlangFront

/-- What stands at an offset of the source, before it and behind it, when a fault is there. -/
def Fault.LocatedAt (source : List Char) (offset : Nat) : Fault → Prop
  | strayCharacter c =>
    source[offset]? = some c ∧ isWhiteSpace c = false ∧ isAlphabetic c = false ∧
      c.isDigit = false ∧ c ∉ ['_', '"', '\'', '$', '&', '|'] ∧ Symbol.ofChar? c = none
  | danglingSigil =>
    source[offset]? = some '$' ∧
      ∀ c ∈ source[offset + 1]?, isAlphabetic c = false ∧ c ≠ '_'
  | loneAmpersand => source[offset]? = some '&' ∧ source[offset + 1]? ≠ some '&'
  | loneBar => source[offset]? = some '|' ∧ source[offset + 1]? ≠ some '|'
  | openComment | unterminated .string => offset = source.length
  | lineBreak _ => source[offset]? = some '\n'
  | badEscape quoted c =>
    source[offset]? = some c ∧ (source.take offset).getLast? = some '\\' ∧ c ≠ '\n' ∧
      c ∉ ['n', 't', quoted.quote, '\\']
  | unterminated .character => offset = source.length ∨ source[offset]? = some '\n'
  | emptyCharacter =>
    source[offset]? = some '\'' ∧ (source.take offset).getLast? = some '\''
  | crowdedCharacter => ∃ c, source[offset]? = some c ∧ c ≠ '\'' ∧ c ≠ '\n'
  | missingFraction =>
    source[offset]? = some '.' ∧ (∃ d ∈ (source.take offset).getLast?, d.isDigit = true) ∧
      ∀ c ∈ source[offset + 1]?, c.isDigit = false
  | missingGroup =>
    source[offset]? = some '_' ∧ (∃ d ∈ (source.take offset).getLast?, d.isDigit = true) ∧
      ∀ c ∈ source[offset + 1]?, c.isDigit = false
  | wordAfterNumber =>
    (∃ c ∈ source[offset]?, isAlphabetic c = true) ∧
      ∃ d ∈ (source.take offset).getLast?, d.isDigit = true

-- ---------------------------------------------------------------------------
-- Numbers end in a digit
-- ---------------------------------------------------------------------------

namespace Grammar

def EndsInDigit (text : List Char) : Prop := ∃ d ∈ text.getLast?, d.isDigit = true

variable {text front part : List Char} {mark : Char}

theorem Digits.endsInDigit (h : Digits text) : EndsInDigit text :=
  ⟨_, List.getLast?_eq_some_getLast h.1, h.2 _ (List.getLast_mem h.1)⟩

theorem EndsInDigit.behind (h : EndsInDigit text) (front : List Char) :
    EndsInDigit (front ++ text) := by
  obtain ⟨d, hd, hdigit⟩ := h
  exact ⟨d, List.mem_getLast?_append_of_mem_getLast? hd, hdigit⟩

theorem EndsInDigit.append_group (h : EndsInDigit front) (hpart : DigitGroup mark part) :
    EndsInDigit (front ++ part) := by
  rcases hpart with rfl | ⟨digits, hdigits, rfl⟩
  · rwa [List.append_nil]
  · rw [← List.singleton_append, ← List.append_assoc]
    exact hdigits.endsInDigit.behind _

theorem Number.endsInDigit (h : Number text) : EndsInDigit text := by
  obtain ⟨whole, fraction, last, hwhole, hfraction, hlast, rfl⟩ := h
  exact (hwhole.endsInDigit.append_group hfraction).append_group hlast

end Grammar

-- ---------------------------------------------------------------------------
-- Broken pieces
-- ---------------------------------------------------------------------------

/-- The characters around the end of a front part of a text. -/
theorem around_length (front rest : List Char) :
    (front ++ rest)[front.length]? = rest.head? ∧
      (front ++ rest)[front.length + 1]? = rest.tail.head? ∧
      (front ++ rest).take front.length = front := by
  refine ⟨?_, ?_, List.take_left⟩
  · rw [List.getElem?_append_right (Nat.le_refl _), Nat.sub_self, List.head?_eq_getElem?]
  · rw [List.getElem?_append_right (Nat.le_add_right _ _), Nat.add_sub_cancel_left,
      List.head?_eq_getElem?, List.getElem?_tail]

theorem isWordStart_eq_false_iff {c : Char} :
    isWordStart c = false ↔ isAlphabetic c = false ∧ c ≠ '_' := by
  simp [isWordStart]

theorem Stop.Breaks.locatedAt {stop : Stop} {rest : List Char} (h : stop.Breaks rest)
    (before : List Char) : stop.fault.LocatedAt (before ++ stop.passed ++ rest)
      (before ++ stop.passed).length := by
  obtain ⟨hhere, hnext, hfront⟩ := around_length (before ++ stop.passed) rest
  cases h with
  | strayCharacter hspace hword hdigit hother hsymbol =>
    obtain ⟨hletter, hbar⟩ := isWordStart_eq_false_iff.mp hword
    exact ⟨hhere, hspace, hletter, hdigit, List.not_mem_cons_of_ne_of_not_mem hbar hother, hsymbol⟩
  | danglingSigil hnone =>
    exact ⟨hhere, fun c hc => isWordStart_eq_false_iff.mp (hnone c (hnext ▸ hc))⟩
  | loneAmpersand hnone => exact ⟨hhere, hnext ▸ hnone⟩
  | loneBar hnone => exact ⟨hhere, hnext ▸ hnone⟩
  | openComment hopen => simp [Fault.LocatedAt]
  | lineBreak hopened hslash => exact hhere
  | @badEscape quoted body _ c hopened hline hillegal =>
    have hslash : (before ++ (quoted.quote :: body ++ ['\\'])).getLast? = some '\\' := by
      rw [← List.append_assoc, List.getLast?_concat]
    exact ⟨hhere, hfront.symm ▸ hslash, hline, hillegal⟩
  | @unterminated quoted body slash hopened hslash =>
    have hend := congrArg List.length
      (List.append_nil (before ++ (quoted.quote :: body ++ slash)))
    cases quoted with
    | string => exact hend.symm
    | character => exact .inl hend.symm
  | emptyCharacter =>
    have hquote : (before ++ ['\'']).getLast? = some '\'' := List.getLast?_concat
    exact ⟨hhere, hfront.symm ▸ hquote⟩
  | @unclosedCharacter unit rest hunit hend =>
    cases rest with
    | nil => exact .inl (congrArg List.length (List.append_nil (before ++ '\'' :: unit))).symm
    | cons c later => exact .inr (hhere.trans (congrArg some (hend c rfl)))
  | crowdedCharacter hunit hquote hline => exact ⟨_, hhere, hquote, hline⟩
  | missingFraction hwhole hnone =>
    have hdigit := hwhole.endsInDigit.behind before
    exact ⟨hhere, hfront.symm ▸ hdigit, hnext ▸ hnone⟩
  | missingGroup hwhole hfraction hnone =>
    have hdigit := (hwhole.endsInDigit.append_group hfraction).behind before
    exact ⟨hhere, hfront.symm ▸ hdigit, hnext ▸ hnone⟩
  | wordAfterNumber hnumber hword =>
    have hdigit := hnumber.endsInDigit.behind before
    exact ⟨⟨_, hhere, hword⟩, hfront.symm ▸ hdigit⟩

-- ---------------------------------------------------------------------------
-- The error of a source
-- ---------------------------------------------------------------------------

/-- The error of a source is at an offset up to which the source is pieces and
the beginning of a piece that breaks off there. -/
theorem tokenize_located {file : Option String} {source : String} {error : LexicalError}
    (h : tokenize file source = .error error) :
    ∃ offset ≤ source.toList.length, error.span.PointsAt file source.toList offset ∧
      error.fault.LocatedAt source.toList offset ∧
      ∃ pieces passed, Tiles source.toList pieces (passed ++ source.toList.drop offset) ∧
        Stop.Breaks ⟨error.fault, passed⟩ (source.toList.drop offset) := by
  obtain ⟨pieces, c, rest, stop, htiles, hread, rfl⟩ := tokenize_eq_error_iff.mp h
  obtain ⟨remaining, hremaining, hbreaks⟩ := Piece.breaks_of_read hread
  have hsource : source.toList = pieces.flatMap Piece.text ++ stop.passed ++ remaining := by
    rw [List.append_assoc, ← hremaining, htiles.flatMap_append]
  have hfront : pieces.flatMap Piece.text ++ stop.passed <+: source.toList :=
    hsource ▸ List.prefix_append _ remaining
  have hdrop :
      source.toList.drop (pieces.flatMap Piece.text ++ stop.passed).length = remaining := by
    rw [hsource, List.drop_left]
  refine ⟨_, hfront.length_le, Span.pointsAt_point hfront, ?_, pieces, stop.passed, ?_, ?_⟩
  · exact hsource ▸ hbreaks.locatedAt (pieces.flatMap Piece.text)
  · rwa [hdrop, ← hremaining]
  · rwa [hdrop]

/-- A group of digits that is missing, behind a comment over two lines with an open quote. -/
theorem tokenize_located_missingGroup :
    let source := "x /*'\n*/ 1_a"
    let error : LexicalError :=
      ⟨.missingGroup, .point none (Position.line ⟨1, 4⟩) (Position.column ⟨1, 4⟩)⟩
    tokenize none source = .error error ∧
      ∃ offset ≤ source.toList.length, error.span.PointsAt none source.toList offset ∧
        error.fault.LocatedAt source.toList offset := by
  intro source error
  have h : tokenize none source = .error error := by decide +kernel
  obtain ⟨offset, hle, hspan, hfault, -⟩ := tokenize_located h
  exact ⟨h, offset, hle, hspan, hfault⟩

end KlangFront
