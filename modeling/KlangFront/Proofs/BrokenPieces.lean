import KlangFront.Proofs.Tiling

/-!
# Broken pieces stop the reader

`Stop.Breaks` lists how a piece breaks off. The reader stops for no other reason
(`Piece.breaks_of_read`), and it stops at every one of them: here each reader is
run into what breaks its piece off, with the characters before it passed. Together
this is `Piece.read_eq_error_iff`.

`BreaksOff` says the same of a whole text, which is pieces and then a piece that
breaks off (`Scan.of_eq_breaksOff_iff`, `tokenize_eq_breaksOff_iff`). The offending
character, or the end of the text, is then at `Scan.offence?`.
-/

namespace KlangFront

variable {rest : List Char}

-- ---------------------------------------------------------------------------
-- Numbers
-- ---------------------------------------------------------------------------

namespace Number

variable {whole fraction number : List Char} {c : Char}

theorem digits_append (hwhole : Grammar.Digits whole) (c : Char) (rest : List Char)
    (hdigit : c.isDigit = false) :
    digits (whole ++ c :: rest) = whole ∧ afterDigits (whole ++ c :: rest) = c :: rest :=
  digits_eq_iff.mpr ⟨rfl, hwhole.2, by simpa using hdigit⟩

theorem read_missingFraction (hwhole : Grammar.Digits whole)
    (hnone : ∀ d ∈ rest.head?, d.isDigit = false) :
    read (whole ++ '.' :: rest) = .error ⟨.missingFraction, whole⟩ := by
  obtain ⟨hdigits, hafter⟩ := digits_append hwhole '.' rest rfl
  have hgroup : group '.' .missingFraction ('.' :: rest) = .error ⟨.missingFraction, []⟩ :=
    group_eq_error_iff.mpr ⟨rfl, rest, rfl, hnone⟩
  simp [read, hdigits, hafter, hgroup, Stop.behind]

/-- The fraction of a number, where something other than a digit or a point follows. -/
theorem group_fraction (hfraction : Grammar.DigitGroup '.' fraction) (rest : List Char)
    (hdigit : c.isDigit = false) (hpoint : c ≠ '.') :
    group '.' .missingFraction (fraction ++ c :: rest) = .ok (fraction, c :: rest) := by
  refine group_eq_ok_iff.mpr ⟨rfl, hfraction, fun d hd => ?_⟩
  obtain rfl : c = d := by simpa using hd
  split
  · exact hpoint
  · exact hdigit

/-- The whole part of a number, where its fraction and then no digit follows. -/
theorem digits_fraction (hwhole : Grammar.Digits whole)
    (hfraction : Grammar.DigitGroup '.' fraction) (c : Char) (rest : List Char)
    (hdigit : c.isDigit = false) :
    digits (whole ++ fraction ++ c :: rest) = whole ∧
      afterDigits (whole ++ fraction ++ c :: rest) = fraction ++ c :: rest := by
  rw [List.append_assoc]
  rcases hfraction with rfl | ⟨digits, -, rfl⟩
  · exact digits_append hwhole c rest hdigit
  · exact digits_append hwhole '.' (digits ++ c :: rest) rfl

theorem read_missingGroup (hwhole : Grammar.Digits whole)
    (hfraction : Grammar.DigitGroup '.' fraction)
    (hnone : ∀ d ∈ rest.head?, d.isDigit = false) :
    read (whole ++ fraction ++ '_' :: rest) = .error ⟨.missingGroup, whole ++ fraction⟩ := by
  obtain ⟨hdigits, hafter⟩ := digits_fraction hwhole hfraction '_' rest rfl
  have hfirst := group_fraction (c := '_') hfraction rest rfl (by decide)
  have hgroup : group '_' .missingGroup ('_' :: rest) = .error ⟨.missingGroup, []⟩ :=
    group_eq_error_iff.mpr ⟨rfl, rest, rfl, hnone⟩
  simp only [read, hdigits, hafter, hfirst, hgroup]
  simp [Stop.behind]

/-- Where each part of a number ends if a character follows that continues none. -/
theorem ends_before {last : List Char} (hfraction : Grammar.DigitGroup '.' fraction)
    (hlast : Grammar.DigitGroup '_' last) (rest : List Char) (hdigit : c.isDigit = false)
    (hpoint : c ≠ '.') (hbar : c ≠ '_') :
    (∀ d ∈ (fraction ++ last ++ c :: rest).head?, d.isDigit = false) ∧
      GroupEnds '.' fraction (last ++ c :: rest) ∧ GroupEnds '_' last (c :: rest) := by
  rcases hfraction with rfl | ⟨ds, -, rfl⟩ <;> rcases hlast with rfl | ⟨es, -, rfl⟩ <;>
    simp [GroupEnds, hdigit, hpoint, hbar]

theorem read_wordAfterNumber (hnumber : Grammar.Number number) (rest : List Char)
    (hword : isAlphabetic c = true) :
    read (number ++ c :: rest) = .error ⟨.wordAfterNumber, number⟩ := by
  obtain ⟨whole, fraction, last, hwhole, hfraction, hlast, rfl⟩ := hnumber
  have hdigit : c.isDigit = false := by
    cases hd : c.isDigit with
    | false => rfl
    | true =>
      have hstart := isWordStart_of_isDigit hd
      rw [isWordStart, hword] at hstart
      cases hstart
  obtain ⟨hwends, hfends, hlends⟩ := ends_before hfraction hlast rest hdigit
    (ne_of_class rfl hword) (ne_of_class rfl hword)
  rw [read_parts hwhole hfraction hlast hwends hfends hlends]
  simp [hword]

end Number

-- ---------------------------------------------------------------------------
-- Literals
-- ---------------------------------------------------------------------------

namespace Literal

open Grammar (Opened Slash LiteralUnit)

variable {quoted : Quoted} {body slash unit text : List Char} {c : Char}

/-- A literal that is open behind its units stops at what stands in the way of the next one. -/
theorem read_obstacle (hbody : Opened quoted body) (hblocked : unit? quoted text = none)
    (hquote : text.head? ≠ some quoted.quote) :
    read quoted (body ++ text) = .error ((obstacle quoted text).behind body) := by
  cases quoted with
  | string =>
    have hunits : units .string (body ++ text) = (body, text) :=
      units_eq_iff.mpr ⟨rfl, hbody, hblocked⟩
    simp only [read, string, hunits]
    cases text with
    | nil => rfl
    | cons c later =>
      have hother : c ≠ '"' := by simpa [Quoted.quote] using hquote
      simp [hother]
  | character =>
    obtain rfl : body = [] := hbody
    have hother : text.head? ≠ some '\'' := hquote
    simp [read, character, hblocked, hother, Stop.behind]

theorem blocked_lineFeed (hslash : Slash slash) (rest : List Char) :
    unit? quoted (slash ++ '\n' :: rest) = none ∧
      (slash ++ '\n' :: rest).head? ≠ some quoted.quote ∧
      obstacle quoted (slash ++ '\n' :: rest) = ⟨.lineBreak quoted, slash⟩ := by
  rcases hslash with rfl | rfl <;> cases quoted <;>
    simp [unit?, obstacle, Quoted.quote, Quoted.canEscape]

theorem blocked_end (quoted : Quoted) (hslash : Slash slash) :
    unit? quoted slash = none ∧ slash.head? ≠ some quoted.quote ∧
      obstacle quoted slash = ⟨.unterminated quoted, slash⟩ := by
  rcases hslash with rfl | rfl <;> cases quoted <;> simp [unit?, obstacle, Quoted.quote]

theorem blocked_escape (hfeed : c ≠ '\n') (hillegal : c ∉ ['n', 't', quoted.quote, '\\'])
    (rest : List Char) :
    unit? quoted ('\\' :: c :: rest) = none ∧
      ('\\' :: c :: rest).head? ≠ some quoted.quote ∧
      obstacle quoted ('\\' :: c :: rest) = ⟨.badEscape quoted c, ['\\']⟩ := by
  have hescape : quoted.canEscape c = false := by
    rw [← Bool.not_eq_true, Quoted.canEscape_iff]
    exact hillegal
  refine ⟨by simp [unit?, hescape], ?_, by simp [obstacle, hfeed]⟩
  cases quoted <;> simp [Quoted.quote]

theorem read_emptyCharacter : read .character ('\'' :: rest) = .error ⟨.emptyCharacter, []⟩ := by
  simp [read, character, unit?, Quoted.quote]

theorem read_unclosedCharacter (hunit : LiteralUnit .character unit)
    (hend : ∀ c ∈ rest.head?, c = '\n') :
    read .character (unit ++ rest) = .error ⟨.unterminated .character, unit⟩ := by
  have hfound : unit? .character (unit ++ rest) = some (unit, rest) :=
    unit?_eq_some_iff.mpr ⟨rfl, hunit⟩
  simp only [read, character, hfound]
  cases rest with
  | nil => rfl
  | cons c later =>
    obtain rfl : c = '\n' := hend c rfl
    rfl

theorem read_crowdedCharacter (hunit : LiteralUnit .character unit) (hquote : c ≠ '\'')
    (hfeed : c ≠ '\n') :
    read .character (unit ++ c :: rest) = .error ⟨.crowdedCharacter, unit⟩ := by
  have hfound : unit? .character (unit ++ c :: rest) = some (unit, c :: rest) :=
    unit?_eq_some_iff.mpr ⟨rfl, hunit⟩
  simp [read, character, hfound, hquote, hfeed]

end Literal

-- ---------------------------------------------------------------------------
-- Pieces
-- ---------------------------------------------------------------------------

namespace Piece

variable {c : Char} {stop : Stop}

theorem readLiteral_obstacle {quoted : Quoted} {body text : List Char}
    (hbody : Grammar.Opened quoted body) (hblocked : Literal.unit? quoted text = none)
    (hquote : text.head? ≠ some quoted.quote) :
    Piece.read quoted.quote (body ++ text)
      = .error ((Literal.obstacle quoted text).behind (quoted.quote :: body)) := by
  rw [read_quote, readLiteral, Literal.read_obstacle hbody hblocked hquote]
  rfl

theorem readLiteral_character {text : List Char} {inner : Stop}
    (h : Literal.read .character text = .error inner) :
    Piece.read '\'' text = .error (inner.behind ['\'']) := by
  have hread : Piece.read '\'' text = readLiteral .character text := read_quote .character
  rwa [readLiteral, h] at hread

theorem readNumber_digits {digits text : List Char} {inner : Stop} (hdigits : Grammar.Digits digits)
    (h : Number.read (digits ++ text) = .error inner) :
    ∃ c later, digits ++ text = c :: later ∧ Piece.read c later = .error inner := by
  obtain ⟨c, later, rfl⟩ := List.exists_cons_of_ne_nil hdigits.1
  refine ⟨c, later ++ text, rfl, ?_⟩
  rw [read_of_isDigit (hdigits.2 c List.mem_cons_self), readNumber, ← List.cons_append, h]

/-- A character that is no symbol, with nothing behind it that makes them one. -/
theorem readSymbol_none (hpair : ∀ d ∈ rest.head?, Symbol.ofPair? c d = none)
    (hsingle : Symbol.ofChar? c = none) :
    readSymbol c rest = .error ⟨if c = '&' then .loneAmpersand
      else if c = '|' then .loneBar else .strayCharacter c, []⟩ := by
  have hnone : rest.head?.bind (Symbol.ofPair? c) = none := by
    cases hd : rest.head? with
    | none => rfl
    | some d => exact hpair d hd
  simp only [readSymbol, hnone, hsingle]
  split
  · rfl
  · split <;> rfl

/-- A character that starts no symbol of its own starts none of two characters,
the ampersand and the bar apart. -/
theorem ofPair?_none {d : Char} (hsingle : Symbol.ofChar? c = none) (hand : c = '&' → d ≠ '&')
    (hbar : c = '|' → d ≠ '|') : Symbol.ofPair? c d = none := by
  cases hpair : Symbol.ofPair? c d with
  | none => rfl
  | some sign =>
    have hspelled := Symbol.ofPair?_eq_some_iff.mp hpair
    cases sign with
    | conjunction => cases hspelled; exact absurd rfl (hand rfl)
    | disjunction => cases hspelled; exact absurd rfl (hbar rfl)
    | _ => cases hspelled <;> cases hsingle

theorem read_of_breaks {remaining : List Char} (h : stop.Breaks remaining) :
    ∃ c later, stop.passed ++ remaining = c :: later ∧ Piece.read c later = .error stop := by
  cases h with
  | @strayCharacter c rest hspace hword hdigit hother hsingle =>
    refine ⟨c, rest, rfl, ?_⟩
    simp only [List.mem_cons, List.not_mem_nil, or_false, not_or] at hother
    obtain ⟨hstring, hcharacter, hsigil, hand, hbar⟩ := hother
    have hslash : c ≠ '/' := by
      rintro rfl
      cases hsingle
    rw [read_of_unclaimed ⟨hspace, hword, hdigit, by simp [*]⟩,
      readSymbol_none (fun d _ => ofPair?_none hsingle (by simp [hand]) (by simp [hbar])) hsingle,
      if_neg hand, if_neg hbar]
  | @danglingSigil rest hnone =>
    refine ⟨'$', rest, rfl, ?_⟩
    have hstart : rest.head?.any isWordStart = false := by
      cases hd : rest.head? with
      | none => rfl
      | some d => exact hnone d hd
    rw [read_sigil, readSigil, hstart]
    rfl
  | @loneAmpersand rest hnone =>
    refine ⟨'&', rest, rfl, ?_⟩
    have hpair : ∀ d ∈ rest.head?, Symbol.ofPair? '&' d = none :=
      fun d hd => ofPair?_none rfl (fun _ hsame => hnone (hsame ▸ hd))
        fun hsame => absurd hsame (by decide)
    rw [read_of_unclaimed (by unfold Unclaimed; decide), readSymbol_none hpair rfl, if_pos rfl]
  | @loneBar rest hnone =>
    refine ⟨'|', rest, rfl, ?_⟩
    have hpair : ∀ d ∈ rest.head?, Symbol.ofPair? '|' d = none :=
      fun d hd => ofPair?_none rfl (fun hsame => absurd hsame (by decide))
        fun _ hsame => hnone (hsame ▸ hd)
    rw [read_of_unclaimed (by unfold Unclaimed; decide), readSymbol_none hpair rfl]
    rfl
  | @openComment body hopen =>
    refine ⟨'/', '*' :: body, by simp, ?_⟩
    rw [read_slash, readSlash_open (Comment.close?_eq_none_iff.mpr hopen)]
  | @lineBreak quoted body slash rest hopened hslash =>
    obtain ⟨hblocked, hquote, hstop⟩ := Literal.blocked_lineFeed hslash rest
    refine ⟨quoted.quote, body ++ (slash ++ '\n' :: rest), by simp, ?_⟩
    rw [readLiteral_obstacle hopened hblocked hquote, hstop]
    rfl
  | @badEscape quoted body rest c hopened hfeed hillegal =>
    obtain ⟨hblocked, hquote, hstop⟩ := Literal.blocked_escape hfeed hillegal rest
    refine ⟨quoted.quote, body ++ ('\\' :: c :: rest), by simp, ?_⟩
    rw [readLiteral_obstacle hopened hblocked hquote, hstop]
    rfl
  | @unterminated quoted body slash hopened hslash =>
    obtain ⟨hblocked, hquote, hstop⟩ := Literal.blocked_end quoted hslash
    refine ⟨quoted.quote, body ++ slash, by simp, ?_⟩
    rw [readLiteral_obstacle hopened hblocked hquote, hstop]
    rfl
  | @emptyCharacter rest =>
    exact ⟨'\'', '\'' :: rest, rfl, readLiteral_character Literal.read_emptyCharacter⟩
  | @unclosedCharacter unit _ hunit hend =>
    exact ⟨'\'', unit ++ remaining, rfl,
      readLiteral_character (Literal.read_unclosedCharacter hunit hend)⟩
  | @crowdedCharacter unit rest c hunit hquote hfeed =>
    exact ⟨'\'', unit ++ c :: rest, rfl,
      readLiteral_character (Literal.read_crowdedCharacter hunit hquote hfeed)⟩
  | @missingFraction whole rest hwhole hnone =>
    exact readNumber_digits hwhole (Number.read_missingFraction hwhole hnone)
  | @missingGroup whole fraction rest hwhole hfraction hnone =>
    have hread := Number.read_missingGroup hwhole hfraction hnone
    rw [List.append_assoc] at hread
    simpa using readNumber_digits hwhole hread
  | @wordAfterNumber number rest c hnumber hword =>
    have hread := Number.read_wordAfterNumber hnumber rest hword
    obtain ⟨whole, fraction, last, hwhole, hfraction, hlast, rfl⟩ := hnumber
    rw [List.append_assoc, List.append_assoc] at hread
    simpa using readNumber_digits hwhole hread

/-- Reading stops exactly where a piece breaks off. -/
theorem read_eq_error_iff : Piece.read c rest = .error stop ↔
    ∃ remaining, c :: rest = stop.passed ++ remaining ∧ stop.Breaks remaining := by
  constructor
  · exact breaks_of_read
  · rintro ⟨remaining, hsplit, hbreaks⟩
    obtain ⟨d, later, hsame, hread⟩ := read_of_breaks hbreaks
    cases hsplit.trans hsame
    exact hread

end Piece

-- ---------------------------------------------------------------------------
-- Whole sources
-- ---------------------------------------------------------------------------

/-- The offset at which the scan of a text stops, if it does not come to the end. -/
def Scan.offence? (text : List Char) : Option Nat :=
  (of text).stop.map fun stop => ((of text).pieces.flatMap Piece.text ++ stop.passed).length

/-- A text of pieces and one more that breaks off; `rest` begins with the offending character. -/
structure BreaksOff (text : List Char) (pieces : List Piece) (stop : Stop) (rest : List Char) :
    Prop where
  tiles : Tiles text pieces (stop.passed ++ rest)
  breaks : stop.Breaks rest

variable {text : List Char} {pieces : List Piece} {stop : Stop} {file : Option String}
  {source : String}

theorem Scan.of_eq_breaksOff_iff :
    of text = ⟨pieces, some stop⟩ ↔ ∃ rest, BreaksOff text pieces stop rest := by
  rw [of_eq_stopped_iff]
  constructor
  · rintro ⟨c, later, htiles, hread⟩
    obtain ⟨rest, hsplit, hbreaks⟩ := Piece.read_eq_error_iff.mp hread
    exact ⟨rest, hsplit ▸ htiles, hbreaks⟩
  · rintro ⟨rest, htiles, hbreaks⟩
    obtain ⟨c, later, hsplit, hread⟩ := Piece.read_of_breaks hbreaks
    exact ⟨c, later, hsplit ▸ htiles, hread⟩

namespace BreaksOff

theorem append (h : BreaksOff text pieces stop rest) :
    pieces.flatMap Piece.text ++ stop.passed ++ rest = text := by
  rw [List.append_assoc, h.tiles.flatMap_append]

theorem offence (h : BreaksOff text pieces stop rest) :
    Scan.offence? text = some (pieces.flatMap Piece.text ++ stop.passed).length := by
  simp [Scan.offence?, Scan.of_eq_breaksOff_iff.mpr ⟨rest, h⟩]

end BreaksOff

theorem tokenize_eq_breaksOff_iff {error : LexicalError} : tokenize file source = .error error ↔
    ∃ pieces stop rest, BreaksOff source.toList pieces stop rest ∧
      error = ⟨stop.fault,
        .point file (Position.start.after (pieces.flatMap Piece.text ++ stop.passed)).line
          (Position.start.after (pieces.flatMap Piece.text ++ stop.passed)).column⟩ := by
  rw [tokenize_eq_error_iff]
  constructor
  · rintro ⟨pieces, c, later, stop, htiles, hread, rfl⟩
    obtain ⟨rest, hsplit, hbreaks⟩ := Piece.read_eq_error_iff.mp hread
    exact ⟨pieces, stop, rest, ⟨hsplit ▸ htiles, hbreaks⟩, rfl⟩
  · rintro ⟨pieces, stop, rest, ⟨htiles, hbreaks⟩, rfl⟩
    obtain ⟨c, later, hsplit, hread⟩ := Piece.read_of_breaks hbreaks
    exact ⟨pieces, c, later, stop, hsplit ▸ htiles, hread, rfl⟩

end KlangFront
