import KlangFront.Proofs.TokenSpans
import KlangFront.Token.Listing
import KlangFront.Text.Lines
import Mathlib.Data.List.Nodup

/-!
# What a listing tells

A listing writes the lexemes as they are, so a lexeme can look like the rest of a line.
A line is still read in one way, from its end: the column behind the last colon, the
line number behind the last space before it, and then the name of the kind up to the
first parenthesis. `Listing.row_inj` says so for one token, and
`Listing.text_determines` for whole listings, whose lines are told apart because no
lexeme of a scan has a line feed in it.
-/

namespace KlangFront

-- ---------------------------------------------------------------------------
-- Names of kinds
-- ---------------------------------------------------------------------------

/-- The kinds of tokens, each once. -/
def TokenKind.all : List TokenKind :=
  [identifier, number, literal .string, literal .character, endOfInput]
    ++ ((List.range 10).flatMap Keyword.ofSize).map keyword
    ++ [.plus, .increment, .minus, .decrement, .times, .division, .power, .remainder,
        .leftParen, .rightParen, .leftBrace, .rightBrace, .leftBracket, .rightBracket,
        .comma, .semicolon, .colon, .dot, .assignment, .bang, .less, .greater, .lessEqual,
        .greaterEqual, .doubleEqual, .notEqual, .arrow, .conjunction, .disjunction,
        .atSign].map symbol

theorem TokenKind.mem_all (kind : TokenKind) : kind ∈ all := by
  cases kind with
  | identifier | number | endOfInput => decide
  | literal quoted => cases quoted <;> decide
  | keyword word => cases word <;> decide
  | symbol sign => cases sign <;> decide

theorem TokenKind.name_injective : Function.Injective name := by
  have hnames : (all.map name).Nodup := by decide +kernel
  exact fun kind other h => List.inj_on_of_nodup_map hnames kind.mem_all other.mem_all h

theorem TokenKind.all_isUpper_name (kind : TokenKind) :
    kind.name.toList.all fun c => c.isUpper || c == '_' := by
  cases kind with
  | identifier | number | endOfInput => rfl
  | literal quoted => cases quoted <;> rfl
  | keyword word => cases word <;> rfl
  | symbol sign => cases sign <;> rfl

/-- A name has none of the characters that a listing puts between its parts. -/
theorem TokenKind.not_mem_name {c : Char} (h : (c.isUpper || c == '_') = false)
    (kind : TokenKind) : c ∉ kind.name.toList := by
  intro hc
  rw [List.all_eq_true.mp kind.all_isUpper_name c hc] at h
  cases h

-- ---------------------------------------------------------------------------
-- One token
-- ---------------------------------------------------------------------------

/-- What a listing tells of a token. -/
def Token.listed (token : Token) : (TokenKind × Option String) × Coord × Coord :=
  (token.entry, token.span.startLine, token.span.startColumn)

/-- A token whose lexeme has no line feed in it. -/
def Token.OnOneLine (token : Token) : Prop := ∀ lexeme ∈ token.lexeme, '\n' ∉ lexeme.toList

variable {token other : Token} {tokens others : List Token}

theorem TokenKind.paren_not_mem_name (kind : TokenKind) : '(' ∉ kind.name.toList :=
  not_mem_name rfl kind

theorem Token.paren_mem_display_iff (token : Token) :
    '(' ∈ token.display.toList ↔ token.lexeme.isSome := by
  have hname := token.kind.paren_not_mem_name
  unfold display
  cases token.lexeme <;> simp [hname]

theorem Token.display_inj (h : token.display = other.display) : token.entry = other.entry := by
  have hsome : token.lexeme.isSome ↔ other.lexeme.isSome := by
    rw [← paren_mem_display_iff, h, paren_mem_display_iff]
  have hlists := congrArg String.toList h
  unfold display at hlists
  unfold entry
  cases hlexeme : token.lexeme with
  | none =>
    cases hother : other.lexeme with
    | none =>
      simp only [hlexeme, hother] at hlists
      rw [TokenKind.name_injective (String.toList_inj.mp hlists)]
    | some => simp [hlexeme, hother] at hsome
  | some lexeme =>
    cases hother : other.lexeme with
    | none => simp [hlexeme, hother] at hsome
    | some lexeme' =>
      simp only [hlexeme, hother, String.toList_append, List.append_assoc] at hlists
      obtain ⟨hname, hrest⟩ := Text.cut_first_inj hlists
        token.kind.paren_not_mem_name other.kind.paren_not_mem_name
      have hsame : lexeme = lexeme' := String.toList_inj.mp (by simpa using hrest)
      rw [TokenKind.name_injective (String.toList_inj.mp hname), hsame]

namespace Listing

/-- The line of a token without the line feed that ends it. -/
def row (token : Token) : List Char :=
  ("  " ++ token.display ++ " @").toList ++ ' ' :: token.span.startLine.text.toList
    ++ ':' :: token.span.startColumn.text.toList

theorem toList_line (token : Token) : (line token).toList = row token ++ ['\n'] := by
  simp [line, row]

theorem row_inj (h : row token = row other) : token.listed = other.listed := by
  have hdigits (coord : Coord) : ':' ∉ coord.text.toList ∧ ' ' ∉ coord.text.toList :=
    ⟨Coord.not_mem_text (by decide), Coord.not_mem_text (by decide)⟩
  obtain ⟨hfront, hcolumn⟩ := Text.cut_last_inj h (hdigits _).1 (hdigits _).1
  obtain ⟨hdisplay, hline⟩ := Text.cut_last_inj hfront (hdigits _).2 (hdigits _).2
  have hentry : token.entry = other.entry :=
    Token.display_inj (String.toList_inj.mp (by simpa using hdisplay))
  rw [Token.listed, hentry, Coord.text_injective (String.toList_inj.mp hline),
    Coord.text_injective (String.toList_inj.mp hcolumn), Token.listed]

theorem row_eq_iff : row token = row other ↔ token.listed = other.listed := by
  refine ⟨row_inj, fun h => ?_⟩
  simp only [Token.listed, Token.entry, Prod.mk.injEq] at h
  simp only [row, Token.display, h]

theorem lineFeed_not_mem_row (h : token.OnOneLine) : '\n' ∉ row token := by
  have hname : '\n' ∉ token.kind.name.toList := TokenKind.not_mem_name rfl _
  have hdisplay : '\n' ∉ token.display.toList := by
    unfold Token.display
    cases hlexeme : token.lexeme with
    | some lexeme => simp [hname, h lexeme hlexeme]
    | none => exact hname
  have hdigits (coord : Coord) : '\n' ∉ coord.text.toList := Coord.not_mem_text (by decide)
  simp [row, hdisplay, hdigits]

-- ---------------------------------------------------------------------------
-- Whole listings
-- ---------------------------------------------------------------------------

/-- The title line as far as it goes before the number of tokens. -/
def opening (path : String) : List Char := ("Tokens for '" ++ path ++ "' (").toList

/-- The rest of the title line, without its line feed. -/
def tally (tokens : List Token) : List Char := (tokens.length.repr ++ " tokens):").toList

variable {path path' : String}

theorem toList_text (path : String) (tokens : List Token) : (text path tokens).toList
    = opening path ++ (tally tokens :: tokens.map row).flatMap (· ++ ['\n']) := by
  have hlines : (tokens.map line).flatMap String.toList
      = (tokens.map row).flatMap (· ++ ['\n']) := by
    rw [List.flatMap_map, List.flatMap_map]
    exact List.flatMap_congr fun token _ => toList_line token
  simp [text, lines, title, opening, tally, hlines]

theorem map_row_eq_iff :
    tokens.map row = others.map row ↔ tokens.map Token.listed = others.map Token.listed := by
  induction tokens generalizing others with
  | nil => simp [eq_comm]
  | cons token tokens ih =>
    cases others with
    | nil => simp
    | cons other others => simp [row_eq_iff, ih]

theorem lineFeed_not_mem_tally (tokens : List Token) : '\n' ∉ tally tokens := by
  intro h
  rw [tally, String.toList_append, List.mem_append, Nat.toList_repr] at h
  rcases h with hdigits | hword
  · exact absurd (Nat.isDigit_of_mem_toDigits (by decide) (by decide) hdigits) (by decide)
  · exact absurd hword (by decide)

theorem lineFeed_not_mem_rows (h : ∀ token ∈ tokens, token.OnOneLine) :
    ∀ stretch ∈ tokens.map row, '\n' ∉ stretch := by
  intro stretch hstretch
  obtain ⟨token, htoken, rfl⟩ := List.mem_map.mp hstretch
  exact lineFeed_not_mem_row (h token htoken)

/-- The lines of two listings with one path are told apart behind that path, so what the
path holds does not matter. -/
theorem text_eq_iff (h : ∀ token ∈ tokens, token.OnOneLine)
    (h' : ∀ token ∈ others, token.OnOneLine) :
    text path tokens = text path others ↔ tokens.map Token.listed = others.map Token.listed := by
  have hrows {tokens : List Token} (h : ∀ token ∈ tokens, token.OnOneLine) :
      ∀ stretch ∈ tally tokens :: tokens.map row, '\n' ∉ stretch :=
    List.forall_mem_cons.mpr ⟨lineFeed_not_mem_tally tokens, lineFeed_not_mem_rows h⟩
  rw [← String.toList_inj, toList_text, toList_text, List.append_cancel_left_eq]
  constructor
  · intro hsame
    have hsplit := congrArg (Text.split '\n') hsame
    rw [Text.split_terminated (hrows h), Text.split_terminated (hrows h')] at hsplit
    exact map_row_eq_iff.mp (List.cons.inj (List.append_cancel_right hsplit)).2
  · intro hsame
    have hlength : tokens.length = others.length := by simpa using congrArg List.length hsame
    rw [map_row_eq_iff.mpr hsame, tally, hlength, tally]

/-- A listing whose title is one line, as lines. -/
theorem toList_text_rows (path : String) (tokens : List Token) : (text path tokens).toList
    = ((opening path ++ tally tokens) :: tokens.map row).flatMap (· ++ ['\n']) := by
  rw [toList_text]
  simp

theorem lineFeed_not_mem_rows_of_path (hpath : '\n' ∉ path.toList)
    (h : ∀ token ∈ tokens, token.OnOneLine) :
    ∀ stretch ∈ (opening path ++ tally tokens) :: tokens.map row, '\n' ∉ stretch := by
  refine List.forall_mem_cons.mpr ⟨?_, lineFeed_not_mem_rows h⟩
  simp [opening, hpath, lineFeed_not_mem_tally]

theorem length_lines_text (hpath : '\n' ∉ path.toList) (h : ∀ token ∈ tokens, token.OnOneLine) :
    (Text.lines (text path tokens).toList).length = tokens.length + 1 := by
  rw [toList_text_rows, Text.lines_terminated (lineFeed_not_mem_rows_of_path hpath h)]
  simp

/-- With paths on one line, a listing tells its path too. -/
theorem text_inj (hpath : '\n' ∉ path.toList) (hpath' : '\n' ∉ path'.toList)
    (h : ∀ token ∈ tokens, token.OnOneLine) (h' : ∀ token ∈ others, token.OnOneLine)
    (hsame : text path tokens = text path' others) :
    path = path' ∧ tokens.map Token.listed = others.map Token.listed := by
  have hsplit := congrArg (fun text => Text.split '\n' text.toList) hsame
  simp only [toList_text_rows, Text.split_terminated (lineFeed_not_mem_rows_of_path hpath h),
    Text.split_terminated (lineFeed_not_mem_rows_of_path hpath' h')] at hsplit
  obtain ⟨htitle, hrows⟩ := List.cons.inj (List.append_cancel_right hsplit)
  have hlisted := map_row_eq_iff.mp hrows
  have hlength : tokens.length = others.length := by simpa using congrArg List.length hlisted
  rw [tally, tally, hlength] at htitle
  refine ⟨String.toList_inj.mp ?_, hlisted⟩
  simpa [opening] using htitle

end Listing

-- ---------------------------------------------------------------------------
-- Scans
-- ---------------------------------------------------------------------------

theorem Token.onOneLine_ofLexeme {file : Option String} {start : Position} {unit : Lexeme}
    (h : unit.WellFormed) : (ofLexeme file start unit).OnOneLine := by
  have htext := h.lineFeed_not_mem
  cases unit with
  | identifier content | number content | literal _ content =>
    simp_all [OnOneLine, ofLexeme, Lexeme.content?, Lexeme.text]
  | keyword | symbol => simp [OnOneLine, ofLexeme, Lexeme.content?]

theorem Token.onOneLine_of_tokenize {file : Option String} {source : String} {tokens : List Token}
    (h : tokenize file source = .ok tokens) : ∀ token ∈ tokens, token.OnOneLine := by
  obtain ⟨pieces, htiles, rfl⟩ := tokenize_eq_ok_iff.mp h
  intro token htoken
  rcases List.mem_append.mp htoken with hbody | hlast
  · obtain ⟨place, hplace, rfl⟩ := List.mem_map.mp hbody
    refine Token.onOneLine_ofLexeme (htiles.wellFormed_of_mem_lexemes ?_)
    rw [← Piece.map_placed []]
    exact List.mem_map_of_mem hplace
  · rw [List.mem_singleton.mp hlast]
    exact nofun

/-- A listing tells of each token its kind, its lexeme and where it starts, as long as no
lexeme has a line feed in it. No lexeme of a scan has one, so the listing of a scan under
a path on one line has a title and one line for each token, and tells its path too. -/
theorem Listing.text_determines (path : String) :
    (∀ tokens others : List Token, (∀ token ∈ tokens, token.OnOneLine) →
      (∀ token ∈ others, token.OnOneLine) →
        (text path tokens = text path others ↔
          tokens.map Token.listed = others.map Token.listed)) ∧
    ∀ (file : Option String) (source : String) (tokens : List Token),
      tokenize file source = .ok tokens → (∀ token ∈ tokens, token.OnOneLine) ∧
        ('\n' ∉ path.toList →
          (Text.lines (text path tokens).toList).length = tokens.length + 1 ∧
          ∀ (path' : String) (file' : Option String) (source' : String) (others : List Token),
            '\n' ∉ path'.toList → tokenize file' source' = .ok others →
              text path tokens = text path' others →
                path = path' ∧ tokens.map Token.listed = others.map Token.listed) := by
  refine ⟨fun tokens others h h' => text_eq_iff h h', fun file source tokens h => ?_⟩
  have hlines := Token.onOneLine_of_tokenize h
  refine ⟨hlines, fun hpath => ⟨length_lines_text hpath hlines, ?_⟩⟩
  intro path' file' source' others hpath' h'
  exact text_inj hpath hpath' hlines (Token.onOneLine_of_tokenize h')

/-- Two scans whose identifiers have one place. The first literal goes on as a line of the
second listing does behind its literal. -/
theorem Listing.text_determines_imitation :
    let source := "\"\\\") @ 1:1\" x"
    let source' := "\"\\\"\"        x"
    let tokens : List Token := [
      .ofLexeme none ⟨0, 0⟩ (.literal .string "\\\") @ 1:1".toList),
      .ofLexeme none ⟨0, 12⟩ (.identifier ['x']), .endOfInput none ⟨0, 13⟩]
    let others : List Token := [
      .ofLexeme none ⟨0, 0⟩ (.literal .string "\\\"".toList),
      .ofLexeme none ⟨0, 12⟩ (.identifier ['x']), .endOfInput none ⟨0, 13⟩]
    tokenize none source = .ok tokens ∧ tokenize none source' = .ok others ∧
      (Text.lines (text "m.k" tokens).toList).length = 4 ∧
      text "m.k" tokens ≠ text "m.k" others ∧ text "m\n.k" tokens ≠ text "m\n.k" others := by
  intro source source' tokens others
  have h : tokenize none source = .ok tokens := by decide +kernel
  have h' : tokenize none source' = .ok others := by decide +kernel
  have hdiffer : tokens.map Token.listed ≠ others.map Token.listed := by decide +kernel
  have hscans := (Listing.text_determines "m.k").2
  obtain ⟨hlines, hlisting⟩ := hscans none source tokens h
  obtain ⟨hlength, htells⟩ := hlisting (by decide)
  refine ⟨h, h', hlength, fun hsame => ?_, fun hsame => ?_⟩
  · exact hdiffer (htells "m.k" none source' others (by decide) h' hsame).2
  · have hinj := (Listing.text_determines "m\n.k").1 tokens others
    exact hdiffer ((hinj hlines (hscans none source' others h').1).mp hsame)

end KlangFront
