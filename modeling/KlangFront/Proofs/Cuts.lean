import KlangFront.Proofs.Loop
import KlangFront.Proofs.Moves
import KlangFront.Proofs.Printing

/-!
# Cutting a source text

Wherever the loop of a scan comes to its test, the source may be cut: the part in
front has the tokens read so far, and the part behind goes on as a source of its
own, whose places move by what stands in front (`tokenize_cut`). A line feed can
always be cut at, since it ends whatever ends a text (`tokenize_append_lineFeed`).
-/

namespace KlangFront

open Text (lastLine)

variable {file : Option String} {source : String} {text rest : List Char} {pieces : List Piece}

-- ---------------------------------------------------------------------------
-- Boundaries
-- ---------------------------------------------------------------------------

/-- At a boundary a tiling ends, and its lexemes are the tokens read so far. -/
theorem Scan.Boundary.tiles {offset : Nat} {tokens : List Token}
    (h : Boundary file text offset tokens) :
    ∃ pieces, Tiles text pieces (text.drop offset) ∧ pieces.flatMap Piece.text = text.take offset ∧
      (text.take offset).length = offset ∧
      tokens = (Piece.placed [] pieces).map (Token.ofPlaced file) := by
  obtain ⟨passed, rest, hreaches, hoffset, rfl⟩ := h
  have htiles := hreaches.tiles
  have hsplit := htiles.flatMap_append
  have hlength : (passed.reverse.flatMap Piece.text).length = offset := by
    have hwhole := congrArg List.length hsplit
    rw [List.length_append] at hwhole
    omega
  have hfront : passed.reverse.flatMap Piece.text = text.take offset := by
    rw [← hsplit, ← hlength, List.take_left]
  have hrest : rest = text.drop offset := by
    rw [← hsplit, ← hlength, List.drop_left]
  refine ⟨passed.reverse, hrest ▸ htiles, hfront, hfront ▸ hlength, ?_⟩
  rw [Placement.ofPieces_eq, List.reverse_reverse]

theorem tokenize_cut {offset : Nat} {tokens : List Token}
    (h : Scan.Boundary file source.toList offset tokens)
    (hshort : source.toList.length < Coord.limit) :
    (∃ last : Token, tokenize file (String.ofList (source.toList.take offset))
        = .ok (tokens ++ [last]) ∧
      last.kind = .endOfInput ∧ last.lexeme = none ∧
      last.span.PointsAt file source.toList offset) ∧
    ReadBehind tokens
      (Span.MovedBy ((source.toList.take offset).count '\n')
        (lastLine (source.toList.take offset)).length)
      (tokenize file (String.ofList (source.toList.drop offset))) (tokenize file source) := by
  obtain ⟨pieces, htiles, hfront, hoffset, rfl⟩ := h.tiles
  constructor
  · refine ⟨.endOfInput file (Position.start.after (source.toList.take offset)), ?_, rfl, rfl, ?_⟩
    · refine tokenize_eq_ok_iff.mpr ⟨pieces, ?_, by rw [String.toList_ofList]⟩
      rw [String.toList_ofList, ← hfront]
      exact htiles.truncate
    · have hpoint : (Token.endOfInput file (Position.start.after
          (source.toList.take offset))).span.PointsAt file source.toList _ :=
        Span.pointsAt_point (List.take_prefix offset source.toList)
      rwa [hoffset] at hpoint
  · rw [← hfront]
    exact Tiles.readBehind file (by rwa [String.toList_ofList]) hshort

/-- A cut behind a name on the second line, in a source that fails right there. -/
theorem tokenize_cut_before_open_literal :
    let source := "/*\n*/é'x"
    let tokens : List Token := [.ofLexeme none ⟨1, 2⟩ (.identifier ['é'])]
    Scan.Boundary none source.toList 6 tokens ∧ source.toList.length < Coord.limit ∧
      (∃ last : Token, tokenize none "/*\n*/é" = .ok (tokens ++ [last]) ∧
        last.kind = .endOfInput ∧ last.lexeme = none ∧ last.span.PointsAt none source.toList 6) ∧
      ReadBehind tokens (Span.MovedBy 1 3) (tokenize none "'x") (tokenize none source) := by
  intro source tokens
  have hsource : source.toList = ['/', '*', '\n', '*', '/', 'é', '\'', 'x'] := by decide +kernel
  have hfront : String.ofList (source.toList.take 6) = "/*\n*/é" := by decide +kernel
  have hrest : String.ofList (source.toList.drop 6) = "'x" := by decide +kernel
  have hlines : (source.toList.take 6).count '\n' = 1 := by decide +kernel
  have hcolumns : (lastLine (source.toList.take 6)).length = 3 := by decide +kernel
  have hstart : Scan.Reaches source.toList [] ('/' :: ['*', '\n', '*', '/', 'é', '\'', 'x']) :=
    hsource ▸ .start
  have hcomment : Scan.Reaches source.toList [.trivia ['/', '*', '\n', '*', '/']]
      ('é' :: ['\'', 'x']) := hstart.round (by decide +kernel)
  have hname : Scan.Reaches source.toList
      (.lexeme (.identifier ['é']) :: [.trivia ['/', '*', '\n', '*', '/']]) ['\'', 'x'] :=
    hcomment.round (by decide +kernel)
  have h : Scan.Boundary none source.toList 6 tokens :=
    ⟨_, _, hname, by decide +kernel, by decide +kernel⟩
  have hshort : source.toList.length < Coord.limit := by decide +kernel
  have hcut := tokenize_cut h hshort
  rw [hfront, hrest, hlines, hcolumns] at hcut
  exact ⟨h, hshort, hcut⟩

-- ---------------------------------------------------------------------------
-- Line feeds
-- ---------------------------------------------------------------------------

theorem Piece.endsBefore_lineFeed (piece : Piece) (rest : List Char) :
    piece.EndsBefore ('\n' :: rest) := by
  intro c hc
  obtain rfl : '\n' = c := by simpa using hc
  cases piece with
  | trivia text => exact fun _ => rfl
  | lexeme unit => exact Lexeme.endsAt_of_isWhiteSpace rfl

/-- A line feed closes whatever the end of a text closes. -/
theorem Tiles.append_lineFeed (h : Tiles text pieces []) (rest : List Char) :
    Tiles (text ++ '\n' :: rest) (pieces ++ [.trivia ['\n']]) rest := by
  have hfront := h.exchange fun piece _ => piece.endsBefore_lineFeed rest
  rw [h.flatMap_eq] at hfront
  exact hfront.append (Tiles.done.whiteSpace rfl)

theorem ReadBehind.mono {before : List Token} {spans wider : Span → Span → Prop}
    {alone moved : Except LexicalError (List Token)} (h : ReadBehind before spans alone moved)
    (hspans : ∀ {span other}, spans span other → wider span other) :
    ReadBehind before wider alone moved := by
  cases h with
  | tokens htokens =>
    exact .tokens (htokens.imp fun _ _ htoken => ⟨htoken.kind, htoken.lexeme, hspans htoken.span⟩)
  | error herror => exact .error ⟨herror.fault, hspans herror.span⟩

theorem tokenize_append_lineFeed {first second : String} {tokens : List Token}
    (h : tokenize file first = .ok tokens)
    (hshort : first.toList.length + second.toList.length + 1 < Coord.limit) :
    ReadBehind tokens.dropLast (Span.LoweredBy (first.toList.count '\n' + 1))
      (tokenize file second) (tokenize file (first ++ "\n" ++ second)) := by
  obtain ⟨pieces, htiles, rfl⟩ := tokenize_eq_ok_iff.mp h
  have hwhole : (first ++ "\n" ++ second).toList = first.toList ++ '\n' :: second.toList := by
    simp
  have hcut : Tiles (first ++ "\n" ++ second).toList (pieces ++ [.trivia ['\n']])
      second.toList := hwhole ▸ htiles.append_lineFeed second.toList
  have hlength : (first ++ "\n" ++ second).toList.length < Coord.limit := by
    rw [hwhole, List.length_append, List.length_cons]
    omega
  have hfront : (pieces ++ [Piece.trivia ['\n']]).flatMap Piece.text = first.toList ++ ['\n'] := by
    rw [List.flatMap_append, htiles.flatMap_eq]
    rfl
  have hread := hcut.readBehind file hlength
  rw [hfront, Piece.placed_append, List.count_append, Text.lastLine_concat, if_pos rfl] at hread
  rw [List.dropLast_concat]
  simpa [Piece.placed] using hread.mono Span.MovedBy.loweredBy

/-- A line comment without an end, closed by the line feed between two texts. -/
theorem tokenize_append_open_comment :
    let tokens : List Token := [.ofLexeme none ⟨0, 0⟩ (.symbol .plus), .endOfInput none ⟨0, 4⟩]
    tokenize none "+//x" = .ok tokens ∧ 4 + 3 + 1 < Coord.limit ∧
      ReadBehind tokens.dropLast (Span.LoweredBy 1) (tokenize none "+ &")
        (tokenize none "+//x\n+ &") := by
  intro tokens
  have h : tokenize none "+//x" = .ok tokens := by decide +kernel
  have hshort : 4 + 3 + 1 < Coord.limit := by decide
  have hlines : "+//x".toList.count '\n' = 0 := by decide +kernel
  have happend : ReadBehind tokens.dropLast (Span.LoweredBy ("+//x".toList.count '\n' + 1))
      (tokenize none "+ &") (tokenize none "+//x\n+ &") := tokenize_append_lineFeed h hshort
  rw [hlines] at happend
  exact ⟨h, hshort, happend⟩

end KlangFront
