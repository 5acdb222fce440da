import KlangFront.Lexical.Tokens
import KlangFront.Proofs.Pieces

/-!
# Tilings of a source text

`Tiles text pieces rest` says that well-formed pieces, each over where the next
character comes, make up `text` as far as `rest`. It is what a scan does, step by
step and without a reader: a scan is complete exactly when its pieces tile the
whole text (`Scan.of_eq_complete_iff`), and it stops exactly where a tiling has
come to a piece that cannot be read (`Scan.of_eq_stopped_iff`).

`tokenize_eq_ok_iff` and `tokenize_eq_error_iff` carry this over to tokens and
errors, whose places follow from the text before them.
-/

namespace KlangFront

theorem Lexeme.WellFormed.text_ne_nil {unit : Lexeme} (h : unit.WellFormed) : unit.text ≠ [] := by
  cases unit with
  | identifier name =>
    rcases h.1 with ⟨c, run, rfl, -⟩ | ⟨word, -, rfl⟩ <;> simp [text]
  | number digits =>
    obtain ⟨whole, fraction, last, ⟨hsome, -⟩, -, -, rfl⟩ := h
    simp [text, hsome]
  | literal quoted body => simp [text]
  | keyword reserved => cases reserved <;> simp [text, Keyword.spelling]
  | symbol sign => cases sign <;> simp [text, Symbol.spelling]

theorem Piece.WellFormed.text_ne_nil {piece : Piece} (h : piece.WellFormed) : piece.text ≠ [] := by
  cases piece with
  | trivia text => cases h <;> simp [text]
  | lexeme unit => exact Lexeme.WellFormed.text_ne_nil h

inductive Tiles : List Char → List Piece → List Char → Prop
  | done {rest : List Char} : Tiles rest [] rest
  | piece {piece : Piece} {pieces : List Piece} {after rest : List Char} : piece.WellFormed →
      piece.EndsBefore after → Tiles after pieces rest →
      Tiles (piece.text ++ after) (piece :: pieces) rest

namespace Tiles

variable {text middle rest : List Char} {pieces first second : List Piece}

theorem append (h : Tiles text first middle) (h' : Tiles middle second rest) :
    Tiles text (first ++ second) rest := by
  induction h with
  | done => exact h'
  | piece hvalid hend _ ih => exact .piece hvalid hend (ih h')

theorem of_append (h : Tiles text (first ++ second) rest) :
    ∃ middle, Tiles text first middle ∧ Tiles middle second rest := by
  induction first generalizing text with
  | nil => exact ⟨text, .done, h⟩
  | cons piece first ih =>
    cases h with
    | piece hvalid hend htail =>
      obtain ⟨middle, hfirst, hsecond⟩ := ih htail
      exact ⟨middle, .piece hvalid hend hfirst, hsecond⟩

theorem flatMap_append (h : Tiles text pieces rest) : pieces.flatMap Piece.text ++ rest = text := by
  induction h with
  | done => rfl
  | piece _ _ _ ih => rw [List.flatMap_cons, List.append_assoc, ih]

theorem flatMap_eq (h : Tiles text pieces []) : pieces.flatMap Piece.text = text := by
  simpa using h.flatMap_append

theorem wellFormed (h : Tiles text pieces rest) : ∀ piece ∈ pieces, piece.WellFormed := by
  induction h with
  | done => simp
  | piece hvalid _ _ ih => exact List.forall_mem_cons.mpr ⟨hvalid, ih⟩

theorem endsBefore {piece : Piece} (h : Tiles text (first ++ piece :: second) rest) :
    piece.EndsBefore (second.flatMap Piece.text ++ rest) := by
  obtain ⟨middle, -, htail⟩ := h.of_append
  cases htail with
  | piece _ hend hlater => exact hlater.flatMap_append ▸ hend

/-- What stands behind a tiling only matters for where its last piece ends. -/
theorem exchange {other : List Char} (h : Tiles text pieces rest)
    (hend : ∀ piece : Piece, piece.EndsBefore rest → piece.EndsBefore other) :
    Tiles (pieces.flatMap Piece.text ++ other) pieces other := by
  induction h with
  | done => exact .done
  | @piece piece pieces after rest hvalid hpiece hlater ih =>
    rw [List.flatMap_cons, List.append_assoc]
    refine .piece hvalid ?_ (ih hend)
    cases hlater with
    | done => exact hend piece hpiece
    | @piece next pieces after rest hnext =>
      -- the next piece is not empty, so it still decides where this one ends
      obtain ⟨c, tail, hsome⟩ := List.exists_cons_of_ne_nil hnext.text_ne_nil
      simpa [Piece.EndsBefore, hsome] using hpiece

/-- The pieces of a tiling, with nothing behind them. -/
theorem truncate (h : Tiles text pieces rest) : Tiles (pieces.flatMap Piece.text) pieces [] := by
  have hfront : Tiles (pieces.flatMap Piece.text ++ []) pieces [] :=
    h.exchange (by simp [Piece.EndsBefore])
  rwa [List.append_nil] at hfront

end Tiles

theorem Piece.read_of_wellFormed {piece : Piece} {after : List Char} (h : piece.WellFormed)
    (hend : piece.EndsBefore after) :
    ∃ c rest, piece.text ++ after = c :: rest ∧ Piece.read c rest = .ok (piece, after) := by
  cases htext : piece.text with
  | nil => exact absurd htext h.text_ne_nil
  | cons c tail =>
    refine ⟨c, tail ++ after, rfl, Piece.read_eq_ok_iff.mpr ⟨?_, h, hend⟩⟩
    rw [htext]
    rfl

/-- Two tilings of one text go the same way: one of them is the beginning of the other. -/
theorem Tiles.total {text rest rest' : List Char} {pieces pieces' : List Piece}
    (h : Tiles text pieces rest) (h' : Tiles text pieces' rest') :
    pieces <+: pieces' ∨ pieces' <+: pieces := by
  induction h generalizing pieces' with
  | done => exact .inl List.nil_prefix
  | @piece piece pieces after rest hvalid hend _ ih =>
    generalize hsplit : piece.text ++ after = text at h'
    cases h' with
    | done => exact .inr List.nil_prefix
    | @piece piece' pieces' after' _ hvalid' hend' hlater' =>
      -- both first pieces are what the reader gives here
      obtain ⟨c, later, htext, hread⟩ := Piece.read_of_wellFormed hvalid hend
      obtain ⟨c', later', htext', hread'⟩ := Piece.read_of_wellFormed hvalid' hend'
      obtain ⟨rfl, rfl⟩ := List.cons.inj (htext.symm.trans (hsplit.trans htext'))
      cases hread.symm.trans hread'
      exact (ih hlater').imp (List.prefix_cons_inj _).mpr (List.prefix_cons_inj _).mpr

/-- Each piece of a tiling is the longest that the grammar allows at its place. -/
theorem Tiles.longestBefore {text rest : List Char} {first second : List Piece} {piece : Piece}
    (h : Tiles text (first ++ piece :: second) rest) :
    piece.LongestBefore (second.flatMap Piece.text ++ rest) := by
  obtain ⟨c, later, -, hread⟩ :=
    Piece.read_of_wellFormed (h.wellFormed piece (by simp)) h.endsBefore
  exact Piece.longest_of_read hread

-- ---------------------------------------------------------------------------
-- Scans
-- ---------------------------------------------------------------------------

namespace Scan

variable {text rest : List Char} {pieces : List Piece}

theorem of_tiles (h : Tiles text pieces rest) :
    of text = ⟨pieces ++ (of rest).pieces, (of rest).stop⟩ := by
  induction h with
  | done => rfl
  | piece hvalid hend _ ih =>
    obtain ⟨c, later, hsplit, hread⟩ := Piece.read_of_wellFormed hvalid hend
    rw [hsplit, of_cons_of_read hread, ih]
    rfl

/-- How far the pieces of a scan reach: to the end, or to a piece that cannot be read. -/
theorem tiles_of : ∀ text : List Char, ∃ rest, Tiles text (of text).pieces rest ∧
    (((of text).stop = none ∧ rest = []) ∨
      ∃ c later stop, (of text).stop = some stop ∧ rest = c :: later ∧
        Piece.read c later = .error stop)
  | [] => ⟨[], by simpa using Tiles.done, by simp⟩
  | c :: later => by
    cases hread : Piece.read c later with
    | error stop =>
      rw [of_cons_of_stop hread]
      exact ⟨c :: later, .done, .inr ⟨c, later, stop, rfl, rfl, hread⟩⟩
    | ok taken =>
      obtain ⟨piece, after⟩ := taken
      obtain ⟨rest, htiles, hrest⟩ := tiles_of after
      obtain ⟨hsplit, hvalid, hend⟩ := Piece.read_eq_ok_iff.mp hread
      rw [of_cons_of_read hread, hsplit]
      exact ⟨rest, .piece hvalid hend htiles, hrest⟩
termination_by text => text.length
decreasing_by exact Piece.length_of_read hread

theorem of_eq_complete_iff : of text = ⟨pieces, none⟩ ↔ Tiles text pieces [] := by
  constructor
  · intro h
    obtain ⟨rest, htiles, ⟨-, rfl⟩ | ⟨_, _, _, hstop, -⟩⟩ := tiles_of text
    · rwa [h] at htiles
    · rw [h] at hstop
      cases hstop
  · intro h
    rw [of_tiles h]
    simp

theorem of_eq_stopped_iff {stop : Stop} : of text = ⟨pieces, some stop⟩ ↔
    ∃ c rest, Tiles text pieces (c :: rest) ∧ Piece.read c rest = .error stop := by
  constructor
  · intro h
    obtain ⟨rest, htiles, ⟨hstop, -⟩ | ⟨c, later, found, hstop, rfl, hread⟩⟩ := tiles_of text
    · rw [h] at hstop
      cases hstop
    · rw [h] at htiles hstop
      cases hstop
      exact ⟨c, later, htiles, hread⟩
  · rintro ⟨c, rest, htiles, hread⟩
    rw [of_tiles htiles, of_cons_of_stop hread]
    simp

end Scan

-- ---------------------------------------------------------------------------
-- Tokens and errors
-- ---------------------------------------------------------------------------

/-- The lexemes among the pieces behind `before`, each with the whole text before it. -/
def Piece.placed (before : List Char) : List Piece → List (List Char × Lexeme)
  | [] => []
  | trivia text :: rest => placed (before ++ text) rest
  | lexeme unit :: rest => (before, unit) :: placed (before ++ unit.text) rest

/-- The token of a lexeme behind a text that starts the source. -/
def Token.ofPlaced (file : Option String) (place : List Char × Lexeme) : Token :=
  .ofLexeme file (Position.start.after place.1) place.2

theorem Placement.foldl_add (file : Option String) (pieces : List Piece) (before : List Char)
    (tokens : List Token) :
    pieces.foldl (add file) ⟨Position.start.after before, tokens⟩
      = ⟨Position.start.after (before ++ pieces.flatMap Piece.text),
          ((Piece.placed before pieces).map (Token.ofPlaced file)).reverse ++ tokens⟩ := by
  induction pieces generalizing before tokens with
  | nil => simp [Piece.placed]
  | cons piece pieces ih =>
    cases piece with
    | trivia text =>
      simp [add, ← Position.after_append, ih, Piece.placed, Piece.text]
    | lexeme unit =>
      simp [add, ← Position.after_append, ih, Piece.placed, Piece.text, Token.ofPlaced]

theorem Placement.ofPieces_eq (file : Option String) (pieces : List Piece) :
    ofPieces file pieces = ⟨Position.start.after (pieces.flatMap Piece.text),
      ((Piece.placed [] pieces).map (Token.ofPlaced file)).reverse⟩ := by
  simpa [ofPieces, start] using foldl_add file pieces [] []

variable {file : Option String} {source : String}

theorem tokenize_eq_ok_iff {tokens : List Token} : tokenize file source = .ok tokens ↔
    ∃ pieces, Tiles source.toList pieces [] ∧
      tokens = (Piece.placed [] pieces).map (Token.ofPlaced file)
        ++ [.endOfInput file (Position.start.after source.toList)] := by
  constructor
  · intro h
    unfold tokenize at h
    cases hstop : (Scan.of source.toList).stop with
    | some stop => simp [hstop] at h
    | none =>
      have htiles : Tiles source.toList (Scan.of source.toList).pieces [] :=
        Scan.of_eq_complete_iff.mp (by rw [← hstop])
      simp only [hstop, Placement.ofPieces_eq, List.reverse_reverse, htiles.flatMap_eq] at h
      exact ⟨_, htiles, (Except.ok.inj h).symm⟩
  · rintro ⟨pieces, htiles, rfl⟩
    simp [tokenize, Scan.of_eq_complete_iff.mpr htiles, Placement.ofPieces_eq, htiles.flatMap_eq]

theorem tokenize_eq_error_iff {error : LexicalError} : tokenize file source = .error error ↔
    ∃ pieces c rest stop, Tiles source.toList pieces (c :: rest) ∧
      Piece.read c rest = .error stop ∧
      error = ⟨stop.fault,
        .point file (Position.start.after (pieces.flatMap Piece.text ++ stop.passed)).line
          (Position.start.after (pieces.flatMap Piece.text ++ stop.passed)).column⟩ := by
  constructor
  · intro h
    unfold tokenize at h
    cases hstop : (Scan.of source.toList).stop with
    | none => simp [hstop] at h
    | some stop =>
      have hscan : Scan.of source.toList = ⟨(Scan.of source.toList).pieces, some stop⟩ := by
        rw [← hstop]
      obtain ⟨c, rest, htiles, hread⟩ := Scan.of_eq_stopped_iff.mp hscan
      simp only [hstop, Placement.ofPieces_eq, ← Position.after_append] at h
      exact ⟨_, c, rest, stop, htiles, hread, (Except.error.inj h).symm⟩
  · rintro ⟨pieces, c, rest, stop, htiles, hread, rfl⟩
    have hscan := Scan.of_eq_stopped_iff.mpr ⟨c, rest, htiles, hread⟩
    simp [tokenize, hscan, Placement.ofPieces_eq, ← Position.after_append]

end KlangFront
