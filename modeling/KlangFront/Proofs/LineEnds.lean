import KlangFront.Proofs.BrokenPieces
import KlangFront.Proofs.Printing
import KlangFront.Proofs.TokenSpans

/-!
# Line ends

A source may end its lines with a line feed alone or with a carriage return before
it. `Text.withReturns` turns the first form into the second, and
`tokenize_withReturns` says that the two are read alike: they have the same tokens
at the same places, or an error on the same line.

A carriage return is white space, so behind a lexeme it ends what the line feed
ended, and in a line comment it is one character more before the same line feed.
Only where a literal comes to the end of its line does it change what is wrong: it
is an ordinary character there, or an escape that is none.
-/

namespace KlangFront

/-- The text with a carriage return before every line feed. -/
def Text.withReturns (text : List Char) : List Char :=
  text.flatMap fun c => if c = '\n' then ['\r', '\n'] else [c]

/-- The same tokens, or errors on the same line. -/
inductive ReadAlike : Except LexicalError (List Token) → Except LexicalError (List Token) → Prop
  | tokens (tokens : List Token) : ReadAlike (.ok tokens) (.ok tokens)
  | errors {error other : LexicalError} : other.span.file = error.span.file →
      other.span.startLine = error.span.startLine → other.span.endLine = error.span.endLine →
      ReadAlike (.error error) (.error other)

variable {c : Char} {text before rest : List Char} {pieces : List Piece}

-- ---------------------------------------------------------------------------
-- Texts
-- ---------------------------------------------------------------------------

namespace Text

@[simp] theorem withReturns_nil : withReturns [] = [] := rfl

@[simp] theorem withReturns_lineFeed (text : List Char) :
    withReturns ('\n' :: text) = '\r' :: '\n' :: withReturns text := rfl

theorem withReturns_cons (h : c ≠ '\n') (text : List Char) :
    withReturns (c :: text) = c :: withReturns text := by
  simp [withReturns, h]

@[simp] theorem withReturns_append (first second : List Char) :
    withReturns (first ++ second) = withReturns first ++ withReturns second :=
  List.flatMap_append

theorem withReturns_eq_self (h : '\n' ∉ text) : withReturns text = text := by
  induction text with
  | nil => rfl
  | cons c text ih =>
    simp only [List.mem_cons, not_or] at h
    rw [withReturns_cons (Ne.symm h.1), ih h.2]

theorem count_withReturns (text : List Char) :
    (withReturns text).count '\n' = text.count '\n' := by
  induction text with
  | nil => rfl
  | cons c text ih =>
    by_cases hfeed : c = '\n'
    · subst hfeed
      simp [ih]
    · simp [withReturns_cons hfeed, hfeed, ih]

/-- What holds of the next character of a text holds with returns, if it holds of the
return wherever it holds of the line feed. -/
theorem head_withReturns {p : Char → Prop} (hreturn : p '\n' → p '\r')
    (h : ∀ c ∈ text.head?, p c) : ∀ c ∈ (withReturns text).head?, p c := by
  cases text with
  | nil => exact h
  | cons c text =>
    have hc : p c := h c rfl
    by_cases hfeed : c = '\n'
    · subst hfeed
      simpa using hreturn hc
    · simpa [withReturns_cons hfeed] using hc

theorem head?_of_withReturns (h : (withReturns text).head? = some c) (hreturn : c ≠ '\r') :
    text.head? = some c := by
  cases text with
  | nil => exact h
  | cons d text =>
    by_cases hfeed : d = '\n'
    · subst hfeed
      exact absurd (Option.some.inj h).symm hreturn
    · simpa [withReturns_cons hfeed] using h

theorem not_infix_withReturns (h : ¬ ['*', '/'] <:+: text) :
    ¬ ['*', '/'] <:+: withReturns text := by
  induction text with
  | nil => exact h
  | cons c text ih =>
    rw [List.infix_cons_iff, not_or] at h
    have hlater := ih h.2
    by_cases hfeed : c = '\n'
    · subst hfeed
      simp [List.infix_cons_iff, List.cons_prefix_cons, hlater]
    · rw [withReturns_cons hfeed, List.infix_cons_iff, not_or]
      refine ⟨fun hclose => h.1 ?_, hlater⟩
      rw [← Comment.closes_iff] at hclose ⊢
      exact ⟨hclose.1, head?_of_withReturns hclose.2 (by decide)⟩

end Text

open Text (withReturns withReturns_lineFeed withReturns_cons withReturns_append
  withReturns_eq_self head_withReturns)

theorem Position.after_withReturns (position : Position) (text : List Char) :
    position.after (withReturns text) = position.after text := by
  induction text generalizing position with
  | nil => rfl
  | cons c text ih =>
    by_cases hfeed : c = '\n'
    · subst hfeed
      simp [ih, step]
    · simp [withReturns_cons hfeed, ih]

theorem Grammar.BlockBody.withReturns {body : List Char} (h : BlockBody body) :
    BlockBody (withReturns body) := by
  obtain ⟨inner, rfl, hinner⟩ := h
  exact ⟨Text.withReturns inner, by simp [Text.withReturns], Text.not_infix_withReturns hinner⟩

-- ---------------------------------------------------------------------------
-- Tilings
-- ---------------------------------------------------------------------------

/-- White space at the front of a tiling is a piece of its own. -/
theorem Tiles.of_whiteSpace (hspace : isWhiteSpace c = true) (h : Tiles (c :: text) pieces rest)
    (hrest : ∀ d ∈ rest.head?, isWhiteSpace d = false) :
    ∃ later, pieces = .trivia [c] :: later ∧ Tiles text later rest := by
  generalize hwhole : c :: text = whole at h
  cases h with
  | done =>
    rw [hrest c (by simp [← hwhole])] at hspace
    cases hspace
  | @piece piece pieces after rest hvalid hend hlater =>
    obtain ⟨d, remaining, hsplit, hread⟩ := Piece.read_of_wellFormed hvalid hend
    cases hwhole.trans hsplit
    rw [Piece.read_of_isWhiteSpace hspace] at hread
    cases hread
    exact ⟨pieces, rfl, hlater⟩

/-- With returns the text is tiled by the same lexemes, each behind the same text with returns. -/
structure Respaced (text rest : List Char) (pieces others : List Piece) : Prop where
  tiles : Tiles (withReturns text) others (withReturns rest)
  placed : ∀ before, Piece.placed (withReturns before) others
    = (Piece.placed before pieces).map fun place => (withReturns place.1, place.2)

namespace Respaced

variable {after : List Char} {others : List Piece}

theorem lexeme {unit : Lexeme} (h : Respaced after rest pieces others) (hunit : unit.WellFormed)
    (hend : (Piece.lexeme unit).EndsBefore after) :
    Respaced (unit.text ++ after) rest (.lexeme unit :: pieces) (.lexeme unit :: others) := by
  have hsame : withReturns unit.text = unit.text := withReturns_eq_self hunit.lineFeed_not_mem
  have hends : (Piece.lexeme unit).EndsBefore (withReturns after) :=
    head_withReturns (fun _ => Lexeme.endsAt_of_isWhiteSpace rfl) hend
  refine ⟨?_, fun before => ?_⟩
  · rw [withReturns_append, hsame]
    exact h.tiles.lexeme hunit hends
  · have hbehind := h.placed (before ++ unit.text)
    rw [withReturns_append, hsame] at hbehind
    simp [Piece.placed, hbehind]

theorem trivia {text : List Char} (h : Respaced after rest pieces others)
    (hvalid : Grammar.Trivia (withReturns text))
    (hend : (Piece.trivia (withReturns text)).EndsBefore (withReturns after)) :
    Respaced (text ++ after) rest (.trivia text :: pieces)
      (.trivia (withReturns text) :: others) where
  tiles := by
    have hpiece : (Piece.trivia (withReturns text)).WellFormed := hvalid
    rw [withReturns_append]
    exact .piece hpiece hend h.tiles
  placed before := by
    rw [Piece.placed, Piece.placed, ← withReturns_append, h.placed]

theorem lineFeed (h : Respaced after rest pieces others) :
    Respaced ('\n' :: after) rest (.trivia ['\n'] :: pieces)
      (.trivia ['\r'] :: .trivia ['\n'] :: others) where
  tiles := (h.tiles.whiteSpace rfl).whiteSpace rfl
  placed before := by
    have hbehind := h.placed (before ++ ['\n'])
    simpa [Piece.placed] using hbehind

/-- The return before the line feed that ends a line comment belongs to the comment. -/
theorem lineComment {body : List Char} (h : Respaced ('\n' :: after) rest pieces others)
    (hbody : '\n' ∉ body) (hrest : ∀ d ∈ rest.head?, isWhiteSpace d = false) :
    ∃ remaining, Respaced ('/' :: '/' :: body ++ '\n' :: after) rest
      (.trivia ('/' :: '/' :: body) :: pieces)
      (.trivia ('/' :: '/' :: (body ++ ['\r'])) :: remaining) := by
  have hsame : withReturns ('/' :: '/' :: body) = '/' :: '/' :: body :=
    withReturns_eq_self (by simpa using hbody)
  have hrest' : ∀ d ∈ (withReturns rest).head?, isWhiteSpace d = false :=
    head_withReturns (fun hfeed => by cases hfeed) hrest
  obtain ⟨htiles, hplaced⟩ := h
  rw [withReturns_lineFeed] at htiles
  obtain ⟨remaining, rfl, hremaining⟩ := Tiles.of_whiteSpace rfl htiles hrest'
  refine ⟨remaining, ?_, fun before => ?_⟩
  · have hbody' : '\n' ∉ body ++ ['\r'] := by simpa using hbody
    have hcomment := hremaining.lineComment hbody'
    rw [withReturns_append, hsame]
    simpa using hcomment
  · have hbehind := hplaced (before ++ '/' :: '/' :: body)
    rw [withReturns_append, hsame] at hbehind
    simpa [Piece.placed] using hbehind

end Respaced

theorem Tiles.respaced (h : Tiles text pieces rest)
    (hrest : ∀ d ∈ rest.head?, isWhiteSpace d = false) :
    ∃ others, Respaced text rest pieces others := by
  induction h with
  | done => exact ⟨[], .done, fun _ => rfl⟩
  | @piece piece pieces after rest hvalid hend hlater ih =>
    obtain ⟨others, h⟩ := ih hrest
    cases piece with
    | lexeme unit => exact ⟨_, h.lexeme hvalid hend⟩
    | trivia text =>
      cases hvalid with
      | @whiteSpace c hspace =>
        by_cases hfeed : c = '\n'
        · subst hfeed
          exact ⟨_, h.lineFeed⟩
        · have hsame : withReturns [c] = [c] := withReturns_cons hfeed []
          have hvalid : Grammar.Trivia (withReturns [c]) := hsame.symm ▸ .whiteSpace hspace
          have hplain : ¬ ['/', '/'] <+: withReturns [c] :=
            hsame.symm ▸ Piece.not_lineComment_singleton c
          exact ⟨_, h.trivia hvalid (Piece.endsBefore_trivia hplain _)⟩
      | @lineComment body hbody =>
        cases after with
        | nil =>
          have hsame : withReturns ('/' :: '/' :: body) = '/' :: '/' :: body :=
            withReturns_eq_self (by simpa using hbody)
          have hvalid : Grammar.Trivia (withReturns ('/' :: '/' :: body)) :=
            hsame.symm ▸ .lineComment hbody
          exact ⟨_, h.trivia hvalid (by simp [Piece.EndsBefore])⟩
        | cons d later =>
          obtain rfl : d = '\n' := hend d rfl (List.prefix_append ['/', '/'] body)
          obtain ⟨remaining, hremaining⟩ := h.lineComment hbody hrest
          exact ⟨_, hremaining⟩
      | @blockComment body hbody =>
        have hvalid : Grammar.Trivia (withReturns ('/' :: '*' :: body)) :=
          .blockComment hbody.withReturns
        have hplain := Piece.not_lineComment_block (withReturns body)
        exact ⟨_, h.trivia hvalid (Piece.endsBefore_trivia hplain _)⟩

-- ---------------------------------------------------------------------------
-- Broken pieces
-- ---------------------------------------------------------------------------

theorem Grammar.LiteralUnits.concat {quoted : Quoted} {body unit : List Char}
    (h : LiteralUnits quoted body) (hunit : LiteralUnit quoted unit) :
    LiteralUnits quoted (body ++ unit) := by
  simpa using h.append (LiteralUnits.nil.cons hunit)

theorem Grammar.LiteralUnit.carriageReturn (quoted : Quoted) : LiteralUnit quoted ['\r'] :=
  .plain (by cases quoted <;> decide) (by decide) (by decide)

theorem Text.withReturns_passed {passed : List Char} (hpassed : '\n' ∉ passed) (rest : List Char) :
    withReturns (passed ++ rest) = passed ++ withReturns rest := by
  rw [withReturns_append, withReturns_eq_self hpassed]

/-- A broken piece with returns: it breaks off on the same line, if not for the same fault. -/
theorem Stop.Breaks.withReturns {stop : Stop} (h : stop.Breaks rest) :
    ∃ other remaining, withReturns (stop.passed ++ rest) = other.passed ++ remaining ∧
      Stop.Breaks other remaining ∧ other.passed.count '\n' = stop.passed.count '\n' := by
  by_cases hcomment : stop.fault = .openComment
  · cases h with
    | @openComment body hopen =>
      refine ⟨⟨.openComment, '/' :: '*' :: Text.withReturns body⟩, [], ?_,
        .openComment (Text.not_infix_withReturns hopen), ?_⟩
      · simp [Text.withReturns]
      · simp [Text.count_withReturns]
    | _ => cases hcomment
  · have hpassed := h.lineFeed_not_mem_passed hcomment
    rw [Text.withReturns_passed hpassed]
    cases h with
    | openComment => exact absurd rfl hcomment
    | @strayCharacter c rest hspace hword hdigit hother hsymbol =>
      have hfeed : c ≠ '\n' := by rintro rfl; cases hspace
      rw [withReturns_cons hfeed]
      exact ⟨_, _, rfl, .strayCharacter hspace hword hdigit hother hsymbol, rfl⟩
    | danglingSigil hnone =>
      have hnext := head_withReturns (p := fun d => isWordStart d = false) (fun _ => rfl) hnone
      exact ⟨_, _, rfl, .danglingSigil hnext, rfl⟩
    | loneAmpersand hnone =>
      have hnext := fun hsome => hnone (Text.head?_of_withReturns hsome (by decide))
      exact ⟨_, _, rfl, .loneAmpersand hnext, rfl⟩
    | loneBar hnone =>
      have hnext := fun hsome => hnone (Text.head?_of_withReturns hsome (by decide))
      exact ⟨_, _, rfl, .loneBar hnext, rfl⟩
    | @lineBreak quoted body slash rest hopened hslash =>
      rcases hslash with rfl | rfl
      · cases quoted with
        | string =>
          -- the return is one more character of the string
          have hbody : Grammar.Opened .string (body ++ ['\r']) :=
            Grammar.LiteralUnits.concat hopened (.carriageReturn .string)
          have hbreaks : Stop.Breaks _ ('\n' :: Text.withReturns rest) :=
            .lineBreak hbody (.inl rfl)
          exact ⟨_, _, by simp, hbreaks, by simp [List.count_cons]⟩
        | character =>
          -- the return is the character of the literal
          obtain rfl : body = [] := hopened
          have hunit := Grammar.LiteralUnit.carriageReturn .character
          have hbreaks : Stop.Breaks _ ('\n' :: Text.withReturns rest) :=
            .unclosedCharacter hunit (by simp)
          refine ⟨_, _, ?_, hbreaks, rfl⟩
          rfl
      · -- a backslash cannot escape the return
        have hillegal : '\r' ∉ ['n', 't', quoted.quote, '\\'] := by cases quoted <;> decide
        have hbreaks : Stop.Breaks _ ('\r' :: '\n' :: Text.withReturns rest) :=
          .badEscape hopened (by decide) hillegal
        refine ⟨_, _, ?_, hbreaks, rfl⟩
        rfl
    | @badEscape quoted body rest c hopened hfeed hillegal =>
      rw [withReturns_cons hfeed]
      exact ⟨_, _, rfl, .badEscape hopened hfeed hillegal, rfl⟩
    | unterminated hopened hslash => exact ⟨_, _, rfl, .unterminated hopened hslash, rfl⟩
    | emptyCharacter => exact ⟨_, _, rfl, .emptyCharacter, rfl⟩
    | @unclosedCharacter unit _ hunit hend =>
      cases rest with
      | nil => exact ⟨_, _, rfl, .unclosedCharacter hunit (by simp), rfl⟩
      | cons d rest =>
        -- the literal ends its line, and the return is one character too many
        obtain rfl : d = '\n' := hend d rfl
        have hbreaks : Stop.Breaks _ ('\r' :: '\n' :: Text.withReturns rest) :=
          .crowdedCharacter hunit (by decide) (by decide)
        refine ⟨_, _, ?_, hbreaks, rfl⟩
        rfl
    | crowdedCharacter hunit hquote hfeed =>
      rw [withReturns_cons hfeed]
      exact ⟨_, _, rfl, .crowdedCharacter hunit hquote hfeed, rfl⟩
    | missingFraction hwhole hnone =>
      have hnext := head_withReturns (p := fun d => d.isDigit = false) (fun _ => rfl) hnone
      exact ⟨_, _, rfl, .missingFraction hwhole hnext, rfl⟩
    | missingGroup hwhole hfraction hnone =>
      have hnext := head_withReturns (p := fun d => d.isDigit = false) (fun _ => rfl) hnone
      exact ⟨_, _, rfl, .missingGroup hwhole hfraction hnext, rfl⟩
    | @wordAfterNumber number rest c hnumber hword =>
      have hfeed : c ≠ '\n' := by rintro rfl; cases hword
      rw [withReturns_cons hfeed]
      exact ⟨_, _, rfl, .wordAfterNumber hnumber hword, rfl⟩

-- ---------------------------------------------------------------------------
-- Whole sources
-- ---------------------------------------------------------------------------

theorem Token.ofPlaced_withReturns (file : Option String) (place : List Char × Lexeme) :
    ofPlaced file (withReturns place.1, place.2) = ofPlaced file place := by
  rw [ofPlaced, ofPlaced, Position.after_withReturns]

theorem Stop.Breaks.not_isWhiteSpace_head {stop : Stop} (h : stop.Breaks rest) :
    ∀ c ∈ (stop.passed ++ rest).head?, isWhiteSpace c = false := by
  obtain ⟨d, later, hsplit, hread⟩ := Piece.read_of_breaks h
  intro c hc
  obtain rfl : d = c := by simpa [hsplit] using hc
  cases hspace : isWhiteSpace d with
  | false => rfl
  | true =>
    rw [Piece.read_of_isWhiteSpace hspace] at hread
    cases hread

/-- With returns a text breaks off behind as many line feeds. -/
theorem BreaksOff.withReturns {stop : Stop} (h : BreaksOff text pieces stop rest) :
    ∃ others other remaining, BreaksOff (withReturns text) others other remaining ∧
      (others.flatMap Piece.text ++ other.passed).count '\n'
        = (pieces.flatMap Piece.text ++ stop.passed).count '\n' := by
  obtain ⟨others, htiles, -⟩ := h.tiles.respaced h.breaks.not_isWhiteSpace_head
  obtain ⟨other, remaining, hsplit, hbreaks, hcount⟩ := h.breaks.withReturns
  have hfront : others.flatMap Piece.text = Text.withReturns (pieces.flatMap Piece.text) := by
    have hwhole := htiles.flatMap_append
    rw [← h.tiles.flatMap_append, withReturns_append (pieces.flatMap Piece.text)] at hwhole
    exact List.append_cancel_right hwhole
  refine ⟨others, other, remaining, ⟨hsplit ▸ htiles, hbreaks⟩, ?_⟩
  rw [List.count_append, List.count_append, hfront, Text.count_withReturns, hcount]

/-- A source reads like the same source with returns: it has the same tokens at the same
places, or it breaks off on the same line. -/
theorem tokenize_withReturns (file : Option String) (source : String) :
    ReadAlike (tokenize file source)
      (tokenize file (String.ofList (Text.withReturns source.toList))) := by
  cases houtcome : tokenize file source with
  | ok tokens =>
    obtain ⟨pieces, htiles, rfl⟩ := tokenize_eq_ok_iff.mp houtcome
    obtain ⟨others, hothers, hplaced⟩ := htiles.respaced (by simp)
    have hsame : tokenize file (String.ofList (Text.withReturns source.toList)) = .ok _ :=
      tokenize_eq_ok_iff.mpr ⟨others, by rwa [String.toList_ofList], rfl⟩
    have hlexemes : Piece.placed [] others = _ := hplaced []
    have htokens : (Piece.placed [] others).map (Token.ofPlaced file)
        = (Piece.placed [] pieces).map (Token.ofPlaced file) := by
      rw [hlexemes, List.map_map]
      exact List.map_congr_left fun place _ => Token.ofPlaced_withReturns file place
    rw [hsame, htokens, String.toList_ofList, Position.after_withReturns]
    exact .tokens _
  | error error =>
    obtain ⟨pieces, stop, rest, hbroken, rfl⟩ := tokenize_eq_breaksOff_iff.mp houtcome
    obtain ⟨others, other, remaining, hother, hcount⟩ := hbroken.withReturns
    have hsame : tokenize file (String.ofList (Text.withReturns source.toList)) = .error _ :=
      tokenize_eq_breaksOff_iff.mpr
        ⟨others, other, remaining, by rwa [String.toList_ofList], rfl⟩
    have hline : (Position.start.after (others.flatMap Piece.text ++ other.passed)).line
        = (Position.start.after (pieces.flatMap Piece.text ++ stop.passed)).line := by
      rw [Position.line, Position.line, Position.lineFeeds_after, Position.lineFeeds_after, hcount]
    rw [hsame]
    exact .errors rfl hline hline

/-- A literal that its line feed breaks off is unterminated where a return comes first. -/
example :
    (tokenize none "x\n'\n" = .error ⟨.lineBreak .character, .point none
      (Position.line ⟨1, 1⟩) (Position.column ⟨1, 1⟩)⟩) ∧
    (tokenize none (String.ofList (Text.withReturns "x\n'\n".toList))
      = .error ⟨.unterminated .character, .point none
        (Position.line ⟨1, 2⟩) (Position.column ⟨1, 2⟩)⟩) := by
  decide +kernel

end KlangFront
