import KlangFront.Proofs.Tiling

/-!
# Nothing is lost in a scan

A source text that scans is its pieces, one after another: each is a lexeme or
trivia of the grammar, none could have been longer, and the lexemes among them are
the tokens. `Lossless` ties a text, its pieces and its tokens together, and
`Tiles.lossless` says that a tiling does so.
-/

namespace KlangFront

/-- The kind of a token with the text that its kind leaves open. -/
def Token.entry (token : Token) : TokenKind × Option String := (token.kind, token.lexeme)

def Lexeme.entry (unit : Lexeme) : TokenKind × Option String :=
  (unit.kind, unit.content?.map String.ofList)

/-- The characters that a token stands for. -/
def Token.written (token : Token) : List Char :=
  match token.kind with
  | .identifier | .number => token.text.toList
  | .literal quoted => quoted.quote :: token.text.toList ++ [quoted.quote]
  | .keyword word => word.spelling.toList
  | .symbol sign => sign.spelling
  | .endOfInput => []

def Piece.lexeme? : Piece → Option Lexeme
  | trivia _ => none
  | lexeme unit => some unit

/-- A text cut into pieces that say the same as a list of tokens. -/
structure Lossless (source : List Char) (pieces : List Piece) (tokens : List Token) : Prop where
  whole : pieces.flatMap Piece.text = source
  wellFormed : ∀ piece ∈ pieces, piece.WellFormed
  longest : ∀ {before after : List Piece} {piece : Piece}, pieces = before ++ piece :: after →
    piece.LongestBefore (after.flatMap Piece.text)
  /-- A line comment goes as far as the next line feed or the end of the text. -/
  lineComment : ∀ {before after : List Piece} {body : List Char},
    pieces = before ++ .trivia ('/' :: '/' :: body) :: after →
      ∀ c ∈ (after.flatMap Piece.text).head?, c = '\n'
  entries : tokens.map Token.entry
    = (pieces.filterMap Piece.lexeme?).map Lexeme.entry ++ [(.endOfInput, none)]
  texts : tokens.map Token.written = (pieces.filterMap Piece.lexeme?).map Lexeme.text ++ [[]]

variable {file : Option String} {source : String} {tokens : List Token}

theorem Token.written_ofPlaced (place : List Char × Lexeme) :
    (Token.ofPlaced file place).written = place.2.text := by
  cases hunit : place.2 <;>
    simp [ofPlaced, ofLexeme, written, hunit, Lexeme.kind, Lexeme.content?, Lexeme.text, Token.text]

theorem Piece.map_placed (before : List Char) (pieces : List Piece) :
    (placed before pieces).map Prod.snd = pieces.filterMap lexeme? := by
  induction pieces generalizing before with
  | nil => rfl
  | cons piece pieces ih =>
    cases piece with
    | trivia text => simp [placed, lexeme?, List.filterMap_cons, ih]
    | lexeme unit => simp [placed, lexeme?, ih]

theorem Piece.map_entry_placed (pieces : List Piece) :
    ((placed [] pieces).map (Token.ofPlaced file)).map Token.entry
      = (pieces.filterMap lexeme?).map Lexeme.entry := by
  rw [← map_placed [], List.map_map, List.map_map]
  rfl

theorem Piece.map_written_placed (pieces : List Piece) :
    ((placed [] pieces).map (Token.ofPlaced file)).map Token.written
      = (pieces.filterMap lexeme?).map Lexeme.text := by
  rw [← map_placed [], List.map_map, List.map_map]
  exact List.map_congr_left fun place _ => Token.written_ofPlaced place

theorem Tiles.wellFormed_of_mem_lexemes {text rest : List Char} {pieces : List Piece}
    {unit : Lexeme} (h : Tiles text pieces rest) (hunit : unit ∈ pieces.filterMap Piece.lexeme?) :
    unit.WellFormed := by
  obtain ⟨piece, hpiece, hsome⟩ := List.mem_filterMap.mp hunit
  cases piece with
  | trivia text => cases hsome
  | lexeme found =>
    cases hsome
    exact h.wellFormed _ hpiece

theorem Tiles.lossless {text : List Char} {pieces : List Piece} (h : Tiles text pieces [])
    (position : Position) : Lossless text pieces
      ((Piece.placed [] pieces).map (Token.ofPlaced file) ++ [.endOfInput file position]) where
  whole := h.flatMap_eq
  wellFormed := h.wellFormed
  longest := by
    rintro before after piece rfl
    simpa using h.longestBefore
  lineComment := by
    rintro before after body rfl c hc
    have hend : (Piece.trivia ('/' :: '/' :: body)).EndsBefore _ := h.endsBefore
    exact hend c (by simpa using hc) (List.prefix_append ['/', '/'] body)
  entries := by
    rw [List.map_append, Piece.map_entry_placed]
    rfl
  texts := by
    rw [List.map_append, Piece.map_written_placed]
    rfl

/-- A lexeme is never the end of the input, and has a text of its own exactly if
its kind leaves one open. -/
theorem Lexeme.entry_spec (unit : Lexeme) :
    unit.entry.1 ≠ .endOfInput ∧ unit.entry.2.isSome = unit.entry.1.hasLexeme := by
  cases unit <;> exact ⟨nofun, rfl⟩

theorem tokenize_lossless (h : tokenize file source = .ok tokens) :
    (∃ pieces, Lossless source.toList pieces tokens) ∧
      (∃ body last, tokens = body ++ [last] ∧ last.kind = .endOfInput ∧
        ∀ token ∈ body, token.kind ≠ .endOfInput) ∧
      ∀ token ∈ tokens, token.lexeme.isSome = token.kind.hasLexeme := by
  obtain ⟨pieces, htiles, rfl⟩ := tokenize_eq_ok_iff.mp h
  refine ⟨⟨pieces, htiles.lossless _⟩, ⟨_, _, rfl, rfl, ?_⟩, ?_⟩
  · intro token htoken
    obtain ⟨place, -, rfl⟩ := List.mem_map.mp htoken
    exact place.2.entry_spec.1
  · intro token htoken
    rcases List.mem_append.mp htoken with hbody | hlast
    · obtain ⟨place, -, rfl⟩ := List.mem_map.mp hbody
      exact place.2.entry_spec.2
    · rw [List.mem_singleton.mp hlast]
      rfl

/-- Every kind of trivia and of lexeme, most without a blank between them. -/
theorem lossless_of_crowded_line :
    let source := "$a//b\n/**/if \"x\\n\"1.5_2->'\\''/"
    let tokens : List Token := [
      .ofLexeme none ⟨0, 0⟩ (.identifier ['$', 'a']), .ofLexeme none ⟨1, 4⟩ (.keyword .kwIf),
      .ofLexeme none ⟨1, 7⟩ (.literal .string ['x', '\\', 'n']),
      .ofLexeme none ⟨1, 12⟩ (.number ['1', '.', '5', '_', '2']),
      .ofLexeme none ⟨1, 17⟩ (.symbol .arrow),
      .ofLexeme none ⟨1, 19⟩ (.literal .character ['\\', '\'']),
      .ofLexeme none ⟨1, 23⟩ (.symbol .division), .endOfInput none ⟨1, 24⟩]
    tokenize none source = .ok tokens ∧ ∃ pieces, Lossless source.toList pieces tokens := by
  intro source tokens
  have h : tokenize none source = .ok tokens := by decide +kernel
  exact ⟨h, (tokenize_lossless h).1⟩

end KlangFront
