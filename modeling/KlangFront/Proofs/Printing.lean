import KlangFront.Proofs.Lossless

/-!
# Scanning a printed text

A `Layout` is a list of well-formed lexemes with blanks around them: white space
and comments, of which those between two lexemes start with white space. Scanning
a layout gives back its lexemes, whatever the blanks hold (`Layout.tokenize_text`),
so the tokens of any source survive being printed with a space between them.

White space ends every lexeme (`Lexeme.endsAt_of_isWhiteSpace`), and a comment
ends before its separator does; with that a layout is a tiling.
-/

namespace KlangFront

-- ---------------------------------------------------------------------------
-- Layouts
-- ---------------------------------------------------------------------------

namespace Grammar

/-- White space and comments, each line comment with the line feed that ends it. -/
inductive Blank : List Char → Prop
  | nil : Blank []
  | whiteSpace {c : Char} {rest : List Char} : isWhiteSpace c = true → Blank rest →
      Blank (c :: rest)
  | lineComment {body rest : List Char} : '\n' ∉ body → Blank rest →
      Blank ('/' :: '/' :: body ++ '\n' :: rest)
  | blockComment {body rest : List Char} : BlockBody body → Blank rest →
      Blank ('/' :: '*' :: body ++ rest)

/-- A blank that starts with white space. -/
def Separator (text : List Char) : Prop :=
  Blank text ∧ ∃ c ∈ text.head?, isWhiteSpace c = true

/-- Lexemes with what follows each of them: a separator, or nothing behind the last. -/
inductive Spaced : List (Lexeme × List Char) → Prop
  | nil : Spaced []
  | last {unit : Lexeme} : unit.WellFormed → Spaced [(unit, [])]
  | cons {unit : Lexeme} {gap : List Char} {places : List (Lexeme × List Char)} :
      unit.WellFormed → Separator gap → Spaced places → Spaced ((unit, gap) :: places)

end Grammar

structure Layout where
  lead : List Char
  places : List (Lexeme × List Char)
  lead_blank : Grammar.Blank lead
  spaced : Grammar.Spaced places

def Layout.text (layout : Layout) : List Char :=
  layout.lead ++ layout.places.flatMap fun place => place.1.text ++ place.2

/-- The tokens before the end of the input, as they are written, with a space between them. -/
def Token.spaceOut (tokens : List Token) : List Char :=
  [' '].intercalate (tokens.dropLast.map written)

-- ---------------------------------------------------------------------------
-- What ends a lexeme
-- ---------------------------------------------------------------------------

theorem Symbol.isWhiteSpace_of_mem {sign : Symbol} {c : Char} (h : c ∈ sign.spelling) :
    isWhiteSpace c = false := by
  have hnone : sign.spelling.all (!isWhiteSpace ·) = true := by cases sign <;> decide
  simpa using List.all_eq_true.mp hnone c h

theorem Lexeme.endsAt_of_isWhiteSpace {unit : Lexeme} {c : Char} (h : isWhiteSpace c = true) :
    unit.EndsAt c := by
  have hpart := isWordPart_of_isWhiteSpace h
  cases unit with
  | identifier name => exact hpart
  | number digits =>
    refine ⟨isDigit_of_isWhiteSpace h, ?_, fun hdot => ?_, fun hbar => ?_⟩
    · simp_all [isWordPart]
    · exact absurd hdot (ne_of_class rfl h)
    · exact absurd hbar (ne_of_class rfl h)
  | literal quoted body => trivial
  | keyword reserved => exact hpart
  | symbol sign =>
    refine ⟨fun longer hlonger => ?_, fun _ => ⟨?_, ?_⟩⟩
    · have hspace : isWhiteSpace c = false :=
        longer.isWhiteSpace_of_mem (by simp [hlonger])
      rw [h] at hspace
      cases hspace
    · exact ne_of_class rfl h
    · exact ne_of_class rfl h

theorem Lexeme.endsBefore_separator {unit : Lexeme} {gap rest : List Char}
    (h : Grammar.Separator gap) : (Piece.lexeme unit).EndsBefore (gap ++ rest) := by
  obtain ⟨-, c, hc, hspace⟩ := h
  intro d hd
  obtain ⟨later, rfl⟩ := List.head?_eq_some_iff.mp hc
  obtain rfl : c = d := by simpa using hd
  exact endsAt_of_isWhiteSpace hspace

-- ---------------------------------------------------------------------------
-- Layouts are tilings
-- ---------------------------------------------------------------------------

variable {gap after rest : List Char} {pieces : List Piece} {places : List (Lexeme × List Char)}

namespace Tiles

open Grammar

theorem whiteSpace {c : Char} (hspace : isWhiteSpace c = true) (h : Tiles after pieces rest) :
    Tiles (c :: after) (.trivia [c] :: pieces) rest := by
  have hvalid : (Piece.trivia [c]).WellFormed := Trivia.whiteSpace hspace
  exact .piece hvalid (Piece.endsBefore_trivia (Piece.not_lineComment_singleton c) after) h

theorem lineComment {body : List Char} (hbody : '\n' ∉ body)
    (h : Tiles ('\n' :: after) pieces rest) :
    Tiles ('/' :: '/' :: body ++ '\n' :: after) (.trivia ('/' :: '/' :: body) :: pieces) rest := by
  have hvalid : (Piece.trivia ('/' :: '/' :: body)).WellFormed := Trivia.lineComment hbody
  refine .piece hvalid (fun d hd _ => ?_) h
  exact (Option.mem_some.mp hd).symm

theorem blockComment {body : List Char} (hbody : BlockBody body) (h : Tiles after pieces rest) :
    Tiles ('/' :: '*' :: body ++ after) (.trivia ('/' :: '*' :: body) :: pieces) rest := by
  have hvalid : (Piece.trivia ('/' :: '*' :: body)).WellFormed := Trivia.blockComment hbody
  exact .piece hvalid (Piece.endsBefore_trivia (Piece.not_lineComment_block body) after) h

theorem lexeme {unit : Lexeme} (hunit : unit.WellFormed)
    (hend : (Piece.lexeme unit).EndsBefore after) (h : Tiles after pieces rest) :
    Tiles (unit.text ++ after) (.lexeme unit :: pieces) rest := by
  have hvalid : (Piece.lexeme unit).WellFormed := hunit
  exact .piece hvalid hend h

end Tiles

/-- A blank is a tiling without lexemes, whatever stands behind it. -/
theorem Grammar.Blank.tiles (h : Blank gap) :
    ∃ pieces, Tiles (gap ++ rest) pieces rest ∧ pieces.filterMap Piece.lexeme? = [] := by
  induction h with
  | nil => exact ⟨[], .done, rfl⟩
  | whiteSpace hspace _ ih =>
    obtain ⟨pieces, htiles, hnone⟩ := ih
    exact ⟨_, htiles.whiteSpace hspace, hnone⟩
  | @lineComment body _ hbody _ ih =>
    obtain ⟨pieces, htiles, hnone⟩ := ih
    have hfeed := htiles.whiteSpace (c := '\n') rfl
    refine ⟨.trivia ('/' :: '/' :: body) :: .trivia ['\n'] :: pieces, ?_, hnone⟩
    simpa using hfeed.lineComment hbody
  | @blockComment body _ hbody _ ih =>
    obtain ⟨pieces, htiles, hnone⟩ := ih
    refine ⟨.trivia ('/' :: '*' :: body) :: pieces, ?_, hnone⟩
    simpa using htiles.blockComment hbody

theorem Grammar.Spaced.tiles (h : Spaced places) :
    ∃ pieces, Tiles (places.flatMap fun place => place.1.text ++ place.2) pieces [] ∧
      pieces.filterMap Piece.lexeme? = places.map Prod.fst := by
  induction h with
  | nil => exact ⟨[], .done, rfl⟩
  | @last unit hunit =>
    have hlast : Tiles (unit.text ++ []) [.lexeme unit] [] :=
      Tiles.done.lexeme hunit (by simp [Piece.EndsBefore])
    exact ⟨[.lexeme unit], by simpa using hlast, rfl⟩
  | @cons unit gap places hunit hgap _ ih =>
    obtain ⟨pieces, htiles, hlexemes⟩ := ih
    obtain ⟨blanks, hblanks, hnone⟩ := hgap.1.tiles
    refine ⟨.lexeme unit :: (blanks ++ pieces), ?_, by simp [Piece.lexeme?, hnone, hlexemes]⟩
    have hfirst := (hblanks.append htiles).lexeme hunit (Lexeme.endsBefore_separator hgap)
    simpa using hfirst

theorem Layout.tiles (layout : Layout) : ∃ pieces, Tiles layout.text pieces [] ∧
    pieces.filterMap Piece.lexeme? = layout.places.map Prod.fst := by
  obtain ⟨pieces, htiles, hlexemes⟩ := layout.spaced.tiles
  obtain ⟨blanks, hblanks, hnone⟩ := layout.lead_blank.tiles
  exact ⟨blanks ++ pieces, hblanks.append htiles, by simp [hnone, hlexemes]⟩

theorem Layout.tokenize_text (file : Option String) (layout : Layout) :
    ∃ tokens, tokenize file (String.ofList layout.text) = .ok tokens ∧
      tokens.map Token.entry = layout.places.map (·.1.entry) ++ [(.endOfInput, none)] := by
  obtain ⟨pieces, htiles, hlexemes⟩ := layout.tiles
  refine ⟨_, tokenize_eq_ok_iff.mpr ⟨pieces, ?_, rfl⟩, ?_⟩
  · rwa [String.toList_ofList]
  · rw [(htiles.lossless _).entries, hlexemes, List.map_map]
    rfl

-- ---------------------------------------------------------------------------
-- Printing the tokens of a source
-- ---------------------------------------------------------------------------

theorem Grammar.separator_space : Separator [' '] :=
  ⟨.whiteSpace rfl .nil, ' ', rfl, rfl⟩

/-- Lexemes with one space between them. -/
theorem Grammar.exists_spaced {units : List Lexeme} (h : ∀ unit ∈ units, unit.WellFormed) :
    ∃ places, Spaced places ∧ places.map Prod.fst = units ∧
      (places.flatMap fun place => place.1.text ++ place.2)
        = [' '].intercalate (units.map Lexeme.text) := by
  induction units with
  | nil => exact ⟨[], .nil, rfl, rfl⟩
  | cons unit units ih =>
    obtain ⟨hunit, hunits⟩ := List.forall_mem_cons.mp h
    cases units with
    | nil => exact ⟨[(unit, [])], .last hunit, rfl, by simp⟩
    | cons next units =>
      obtain ⟨places, hspaced, hmap, htext⟩ := ih hunits
      refine ⟨(unit, [' ']) :: places, .cons hunit separator_space hspaced, ?_, ?_⟩
      · rw [List.map_cons, hmap]
      · rw [List.flatMap_cons, htext]
        simp

theorem Token.exists_layout_spaceOut {file : Option String} {source : String}
    {tokens : List Token} (h : tokenize file source = .ok tokens) :
    ∃ layout : Layout, layout.text = spaceOut tokens ∧
      layout.places.map (·.1.entry) ++ [(.endOfInput, none)] = tokens.map entry := by
  obtain ⟨pieces, htiles, rfl⟩ := tokenize_eq_ok_iff.mp h
  obtain ⟨places, hspaced, hmap, htext⟩ :=
    Grammar.exists_spaced fun unit hunit => htiles.wellFormed_of_mem_lexemes hunit
  refine ⟨⟨[], places, .nil, hspaced⟩, ?_, ?_⟩
  · rw [spaceOut, List.dropLast_concat, Piece.map_written_placed]
    exact htext
  · rw [(htiles.lossless _).entries, ← hmap, List.map_map]
    rfl

theorem tokenize_layout (file : Option String) :
    (∀ layout : Layout, ∃ tokens, tokenize file (String.ofList layout.text) = .ok tokens ∧
      tokens.map Token.entry = layout.places.map (·.1.entry) ++ [(.endOfInput, none)]) ∧
    ∀ {other : Option String} {source : String} {tokens : List Token},
      tokenize other source = .ok tokens →
      ∃ again, tokenize file (String.ofList (Token.spaceOut tokens)) = .ok again ∧
        again.map Token.entry = tokens.map Token.entry := by
  refine ⟨fun layout => layout.tokenize_text file, fun h => ?_⟩
  obtain ⟨layout, htext, hentries⟩ := Token.exists_layout_spaceOut h
  obtain ⟨again, hagain, hsame⟩ := layout.tokenize_text file
  exact ⟨again, htext ▸ hagain, hsame.trans hentries⟩

/-- An open quote and a sigil in comments, and a slash that touches neither of them. -/
theorem tokenize_layout_slash :
    let tokens : List Token := [.ofLexeme none ⟨1, 0⟩ (.symbol .division),
      .ofLexeme none ⟨1, 7⟩ (.number ['7']), .endOfInput none ⟨1, 8⟩]
    (∃ layout : Layout, layout.text = "//'\n/\t/*$*/7".toList ∧
      ∃ found, tokenize none (String.ofList layout.text) = .ok found ∧
        found.map Token.entry = layout.places.map (·.1.entry) ++ [(.endOfInput, none)]) ∧
      tokenize none "//'\n/\t/*$*/7" = .ok tokens ∧ Token.spaceOut tokens = "/ 7".toList ∧
      ∃ again, tokenize none (String.ofList (Token.spaceOut tokens)) = .ok again ∧
        again.map Token.entry = tokens.map Token.entry := by
  intro tokens
  have h : tokenize none "//'\n/\t/*$*/7" = .ok tokens := by decide +kernel
  have hseven : Grammar.Number ['7'] :=
    ⟨['7'], [], [], ⟨nofun, List.forall_mem_singleton.mpr rfl⟩, .inl rfl, .inl rfl, rfl⟩
  have hcomment : Grammar.Blank ('\t' :: ('/' :: '*' :: ['$', '*', '/'] ++ [])) :=
    .whiteSpace rfl (.blockComment ⟨['$'], rfl, by decide⟩ .nil)
  have hlead : Grammar.Blank ('/' :: '/' :: ['\''] ++ '\n' :: []) := .lineComment (by decide) .nil
  let layout : Layout := {
    lead := ['/', '/', '\'', '\n']
    places := [(.symbol .division, ['\t', '/', '*', '$', '*', '/']), (.number ['7'], [])]
    lead_blank := hlead
    spaced := .cons trivial ⟨hcomment, '\t', rfl, rfl⟩ (.last hseven) }
  have hlayout := (tokenize_layout none).1 layout
  exact ⟨⟨layout, rfl, hlayout⟩, h, rfl, (tokenize_layout none).2 h⟩

end KlangFront
