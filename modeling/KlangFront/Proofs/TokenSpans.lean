import KlangFront.Proofs.Lossless
import KlangFront.Proofs.Places
import Mathlib.Data.List.Forall2

/-!
# The spans of tokens

The pieces of a source say where its tokens stand, as offsets
(`Piece.extents`). The span of each token shows the line and the columns of its
extent, and the span of the end of the input those of the end of the source. As
long as the source does not outgrow the coordinates, spans are in order, as wide
as their tokens are written, and mark exactly their text.

A token never leaves its line, since no lexeme holds a line feed
(`Lexeme.WellFormed.lineFeed_not_mem`). Nor does a broken piece, unless it is an open
comment (`Stop.Breaks.lineFeed_not_mem_passed`).
-/

namespace KlangFront

/-- The offsets between which the lexemes among the pieces stand, behind `start` characters. -/
def Piece.extents (start : Nat) : List Piece → List (Nat × Nat)
  | [] => []
  | trivia text :: pieces => extents (start + text.length) pieces
  | lexeme unit :: pieces =>
    (start, start + unit.text.length) :: extents (start + unit.text.length) pieces

/-- A token is written between two offsets of the source, and its span covers that text. -/
structure Token.Occupies (file : Option String) (source : List Char) (token : Token)
    (extent : Nat × Nat) : Prop where
  text : (source.take extent.2).drop extent.1 = token.written
  span : token.span.Covers file source extent.1 extent.2

-- ---------------------------------------------------------------------------
-- Lexemes stay on their line
-- ---------------------------------------------------------------------------

theorem Grammar.LiteralUnit.lineFeed_not_mem {quoted : Quoted} {unit : List Char}
    (h : LiteralUnit quoted unit) : '\n' ∉ unit := by
  cases h with
  | plain _ _ hline => simpa using Ne.symm hline
  | escape hlegal =>
    rintro hfeed
    obtain rfl : '\n' = _ := by simpa using hfeed
    cases quoted <;> simp [Quoted.quote] at hlegal

theorem Grammar.LiteralBody.lineFeed_not_mem {quoted : Quoted} {body : List Char}
    (h : LiteralBody quoted body) : '\n' ∉ body := by
  cases quoted with
  | character => exact LiteralUnit.lineFeed_not_mem h
  | string =>
    induction h with
    | nil => simp
    | cons hunit _ ih => simp [hunit.lineFeed_not_mem, ih]

theorem Grammar.Word.lineFeed_not_mem {word : List Char} (h : Word word) : '\n' ∉ word := by
  intro hfeed
  have hpart := h.isWordPart_of_mem _ hfeed
  exact absurd hpart (by decide)

theorem Grammar.Digits.lineFeed_not_mem {digits : List Char} (h : Digits digits) :
    '\n' ∉ digits :=
  Number.not_mem_of_digits rfl h.2

theorem Grammar.DigitGroup.lineFeed_not_mem {mark : Char} {group : List Char}
    (h : DigitGroup mark group) (hmark : mark ≠ '\n') : '\n' ∉ group := by
  rcases h with rfl | ⟨digits, hdigits, rfl⟩
  · simp
  · simp [hmark.symm, hdigits.lineFeed_not_mem]

theorem Grammar.Number.lineFeed_not_mem {number : List Char} (h : Number number) :
    '\n' ∉ number := by
  obtain ⟨whole, fraction, last, hwhole, hfraction, hlast, rfl⟩ := h
  have hpoint := hfraction.lineFeed_not_mem (by decide)
  have hbar := hlast.lineFeed_not_mem (by decide)
  simp [hwhole.lineFeed_not_mem, hpoint, hbar]

theorem Lexeme.WellFormed.lineFeed_not_mem {unit : Lexeme} (h : unit.WellFormed) :
    '\n' ∉ unit.text := by
  cases unit with
  | identifier name =>
    rcases h.1 with hword | ⟨word, hword, rfl⟩
    · exact hword.lineFeed_not_mem
    · simpa [text] using hword.lineFeed_not_mem
  | number digits => exact Grammar.Number.lineFeed_not_mem h
  | literal quoted body =>
    have hbody := Grammar.LiteralBody.lineFeed_not_mem h
    cases quoted <;> simpa [text, Quoted.quote] using hbody
  | keyword reserved => exact reserved.word_spelling.lineFeed_not_mem
  | symbol sign => cases sign <;> decide

theorem Grammar.Opened.lineFeed_not_mem {quoted : Quoted} {body : List Char}
    (h : Opened quoted body) : '\n' ∉ body := by
  cases quoted with
  | string =>
    have hbody : LiteralBody .string body := h
    exact hbody.lineFeed_not_mem
  | character => rw [show body = [] from h]; exact List.not_mem_nil

/-- What is passed of a broken piece is on one line, an open comment apart. -/
theorem Stop.Breaks.lineFeed_not_mem_passed {stop : Stop} {rest : List Char}
    (h : stop.Breaks rest) (hcomment : stop.fault ≠ .openComment) : '\n' ∉ stop.passed := by
  have hquote : ∀ quoted : Quoted, '\n' ≠ quoted.quote := fun quoted => by cases quoted <;> decide
  cases h with
  | openComment => exact absurd rfl hcomment
  | lineBreak hopened hslash =>
    rcases hslash with rfl | rfl <;> simp [hquote, hopened.lineFeed_not_mem]
  | badEscape hopened => simp [hquote, hopened.lineFeed_not_mem]
  | unterminated hopened hslash =>
    rcases hslash with rfl | rfl <;> simp [hquote, hopened.lineFeed_not_mem]
  | unclosedCharacter hunit => simp [hunit.lineFeed_not_mem]
  | crowdedCharacter hunit => simp [hunit.lineFeed_not_mem]
  | missingFraction hwhole => exact hwhole.lineFeed_not_mem
  | missingGroup hwhole hfraction =>
    have hpoint := hfraction.lineFeed_not_mem (by decide)
    simp [hwhole.lineFeed_not_mem, hpoint]
  | wordAfterNumber hnumber => exact hnumber.lineFeed_not_mem
  | _ => simp

-- ---------------------------------------------------------------------------
-- Placed lexemes
-- ---------------------------------------------------------------------------

variable {file : Option String} {before : List Char} {pieces : List Piece}
  {place : List Char × Lexeme}

theorem Piece.extents_eq (before : List Char) (pieces : List Piece) :
    extents before.length pieces = (placed before pieces).map fun place =>
      (place.1.length, (place.1 ++ place.2.text).length) := by
  induction pieces generalizing before with
  | nil => rfl
  | cons piece pieces ih =>
    cases piece with
    | trivia text =>
      rw [extents, placed, ← ih, List.length_append]
    | lexeme unit =>
      rw [extents, placed, List.map_cons, ← ih, List.length_append]

theorem Piece.isPrefix_of_mem_placed (h : place ∈ placed before pieces) :
    before <+: place.1 ∧ place.1 ++ place.2.text <+: before ++ pieces.flatMap text := by
  induction pieces generalizing before with
  | nil => cases h
  | cons piece pieces ih =>
    cases piece with
    | trivia text =>
      obtain ⟨hbefore, hwhole⟩ := ih h
      exact ⟨(List.prefix_append before text).trans hbefore, by simpa [Piece.text] using hwhole⟩
    | lexeme unit =>
      rcases List.mem_cons.mp h with rfl | hlater
      · exact ⟨List.prefix_rfl, by simp [Piece.text, ← List.append_assoc]⟩
      · obtain ⟨hbefore, hwhole⟩ := ih hlater
        exact ⟨(List.prefix_append before unit.text).trans hbefore,
          by simpa [Piece.text] using hwhole⟩

theorem Piece.pairwise_placed (before : List Char) (pieces : List Piece) :
    (placed before pieces).Pairwise fun place later => place.1 ++ place.2.text <+: later.1 := by
  induction pieces generalizing before with
  | nil => exact .nil
  | cons piece pieces ih =>
    cases piece with
    | trivia text => exact ih _
    | lexeme unit =>
      exact .cons (fun later hlater => (isPrefix_of_mem_placed hlater).1) (ih _)

variable {source : List Char}

theorem Tiles.spec_of_mem_placed (h : Tiles source pieces [])
    (hplace : place ∈ Piece.placed [] pieces) :
    place.1 ++ place.2.text <+: source ∧ place.2.WellFormed := by
  have hfront := (Piece.isPrefix_of_mem_placed hplace).2
  have hunit := Piece.map_placed [] pieces ▸ List.mem_map_of_mem (f := Prod.snd) hplace
  exact ⟨by simpa [h.flatMap_eq] using hfront, h.wellFormed_of_mem_lexemes hunit⟩

theorem Token.occupies_ofPlaced (hplace : place.1 ++ place.2.text <+: source)
    (hvalid : place.2.WellFormed) : (ofPlaced file place).Occupies file source
      (place.1.length, (place.1 ++ place.2.text).length) where
  text := by
    rw [Span.take_of_isPrefix hplace, List.drop_left, written_ofPlaced]
  span := by
    rw [ofPlaced, ofLexeme, ← Position.after_append]
    exact Span.covers_onLine hplace hvalid.lineFeed_not_mem hvalid.text_ne_nil

-- ---------------------------------------------------------------------------
-- All tokens of a source
-- ---------------------------------------------------------------------------

/-- Whatever starts behind a lexeme starts behind its span. -/
theorem Tiles.precedes_of_isPrefix (h : Tiles source pieces [])
    (hshort : source.length < Coord.limit) (hplace : place ∈ Piece.placed [] pieces) {span : Span}
    {later : List Char} (hspan : span.StartsAt file source later.length) (hlater : later <+: source)
    (hbehind : place.1 ++ place.2.text <+: later) :
    (Token.ofPlaced file place).span.Before span := by
  obtain ⟨hfront, hvalid⟩ := h.spec_of_mem_placed hplace
  obtain ⟨middle, rfl⟩ := hbehind
  exact (Token.occupies_ofPlaced hfront hvalid).span.precedes hspan hlater
    hvalid.lineFeed_not_mem hshort

/-- The end of the input starts behind every lexeme, and a lexeme behind those before it. -/
theorem Tiles.pairwise_before (h : Tiles source pieces []) (hshort : source.length < Coord.limit) :
    ((Piece.placed [] pieces).map (Token.ofPlaced file)
      ++ [Token.endOfInput file (Position.start.after source)]).Pairwise
        fun token later => token.span.Before later.span := by
  refine List.pairwise_append.mpr ⟨?_, List.pairwise_singleton _ _, ?_⟩
  · refine List.pairwise_map.mpr ((Piece.pairwise_placed [] pieces).imp_of_mem ?_)
    intro place later hplace hlater hbehind
    obtain ⟨hfront, hvalid⟩ := h.spec_of_mem_placed hlater
    have hlater_front := (List.prefix_append later.1 later.2.text).trans hfront
    refine h.precedes_of_isPrefix hshort hplace ?_ hlater_front hbehind
    exact (Token.occupies_ofPlaced hfront hvalid).span.toStartsAt
  · intro token htoken last hlast
    obtain ⟨place, hplace, rfl⟩ := List.mem_map.mp htoken
    rw [List.mem_singleton.mp hlast]
    have hfront := (h.spec_of_mem_placed hplace).1
    refine h.precedes_of_isPrefix hshort hplace ?_ List.prefix_rfl hfront
    exact (Span.pointsAt_point List.prefix_rfl).toStartsAt

theorem tokenize_spans {source : String} {tokens : List Token}
    (h : tokenize file source = .ok tokens) :
    ∃ pieces body last, Lossless source.toList pieces tokens ∧ tokens = body ++ [last] ∧
      List.Forall₂ (Token.Occupies file source.toList) body (Piece.extents 0 pieces) ∧
      last.kind = .endOfInput ∧
      last.span.PointsAt file source.toList source.toList.length ∧
      (source.toList.length < Coord.limit →
        (tokens.Pairwise fun token later => token.span.Before later.span) ∧
        ∀ token ∈ body, token.span.length?.map UInt32.toNat = some token.written.length ∧
          token.span.excerpt? source.toList = some token.written) := by
  obtain ⟨pieces, htiles, rfl⟩ := tokenize_eq_ok_iff.mp h
  refine ⟨pieces, _, _, htiles.lossless _, rfl, ?_, rfl, Span.pointsAt_point List.prefix_rfl, ?_⟩
  · have hextents := Piece.extents_eq [] pieces
    rw [List.length_nil] at hextents
    rw [hextents, List.forall₂_map_left_iff, List.forall₂_map_right_iff, List.forall₂_same]
    intro place hplace
    obtain ⟨hfront, hvalid⟩ := htiles.spec_of_mem_placed hplace
    exact Token.occupies_ofPlaced hfront hvalid
  · intro hshort
    refine ⟨htiles.pairwise_before hshort, ?_⟩
    intro token htoken
    obtain ⟨place, hplace, rfl⟩ := List.mem_map.mp htoken
    obtain ⟨hfront, hvalid⟩ := htiles.spec_of_mem_placed hplace
    have hspan : (Token.ofPlaced file place).span.Covers file source.toList _ _ :=
      (Token.occupies_ofPlaced hfront hvalid).span
    rw [Token.written_ofPlaced]
    exact ⟨hspan.length hfront hvalid.lineFeed_not_mem hvalid.text_ne_nil hshort,
      hspan.excerpt hfront hvalid.lineFeed_not_mem hshort⟩

/-- A comment over two lines, a letter of two bytes and a carriage return before a literal. -/
theorem tokenize_spans_behind_comment :
    let source := "/*\n*/é\r'x'"
    let tokens : List Token := [.ofLexeme none ⟨1, 2⟩ (.identifier ['é']),
      .ofLexeme none ⟨1, 4⟩ (.literal .character ['x']), .endOfInput none ⟨1, 7⟩]
    tokenize none source = .ok tokens ∧
      (∃ pieces body last, Lossless source.toList pieces tokens ∧ tokens = body ++ [last] ∧
        List.Forall₂ (Token.Occupies none source.toList) body (Piece.extents 0 pieces)) ∧
      tokens.Pairwise fun token later => token.span.Before later.span := by
  intro source tokens
  have h : tokenize none source = .ok tokens := by decide +kernel
  obtain ⟨pieces, body, last, hwhole, hlast, hspans, -, -, hexact⟩ := tokenize_spans h
  exact ⟨h, ⟨pieces, body, last, hwhole, hlast, hspans⟩, (hexact (by decide)).1⟩

end KlangFront
