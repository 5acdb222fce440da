import KlangFront.Proofs.TokenSpans
import KlangFront.Source.Cursor

/-!
# Walks of a cursor

`Cursor.Behind` says what a cursor knows of the text that is behind it: its bytes, its
line feeds and the characters of its last line, the latter two as far as a word counts
them. A new cursor is behind nothing, and each move takes it behind more of the source
(`Behind.exists_move?`), so this holds after every walk, and no walk comes to a place
where a slice would not exist.

The scan knows positions instead, which count without a limit. `tokenize_walked` ties the
two together: the spans and the texts of its tokens, and the place of its error, are what
cursors show that walk there. `Cursor.walk?_spec` is about both, walks and scans.
-/

namespace KlangFront

open Coord (saturate)
open Text (lastLine)

namespace Cursor

/-- A move of a cursor. -/
inductive Move
  | advance
  | eatWhile (property : Char → Bool)

def move? (cursor : Cursor) : Move → Option Cursor
  | .advance => cursor.advance?
  | .eatWhile property => cursor.eatWhile? property

/-- Moves one after the other. -/
def walk? (cursor : Cursor) : List Move → Option Cursor
  | [] => some cursor
  | move :: moves => do
    let next ← cursor.move? move
    next.walk? moves

/-- The text `front` is behind the cursor and `rest` is ahead of it. -/
structure Behind (cursor : Cursor) (source : String) (front rest : List Char) : Prop where
  source_eq : cursor.source = source
  whole : source.toList = front ++ rest
  offset : cursor.offset = (String.ofList front).rawEndPos
  line : cursor.line.toNat = saturate (1 + front.count '\n')
  indent : cursor.indent.toNat = saturate (lastLine front).length

/-- What a cursor between two parts of its source sees, and where its moves take it. -/
structure Sound (cursor : Cursor) (source : String) (front rest : List Char) : Prop
    extends Behind cursor source front rest where
  isValid : cursor.offset.IsValid source
  rest? : cursor.rest? = some (String.ofList rest)
  current? : cursor.current? = some (rest.headD '\x00')
  peek? : cursor.peek? = some (rest.tail.headD '\x00')
  isAtEnd : cursor.isAtEnd = true ↔ rest = []
  /-- At the end the cursor stays. -/
  advance?_end : rest = [] → cursor.advance? = some cursor
  advance? : ∀ {c : Char} {later : List Char}, rest = c :: later →
    ∃ next, cursor.advance? = some next ∧ next.Behind source (front ++ [c]) later
  /-- A run is over at the end, or where the property does not hold. -/
  eatWhile? : ∀ property : Char → Bool, ∃ run later next, rest = run ++ later ∧
    (∀ c ∈ run, property c = true) ∧ (∀ c ∈ later.head?, property c = false) ∧
      cursor.eatWhile? property = some next ∧ next.Behind source (front ++ run) later

def WalksTo (cursor next : Cursor) : Prop := ∃ moves, cursor.walk? moves = some next

end Cursor

/-- A token is written between two cursors: its span is what they show, and its text the slice. -/
structure Token.ReadBetween (file : Option String) (first last : Cursor) (token : Token) :
    Prop where
  span : token.span = .onLine file first.line first.column last.lastColumn
  written : last.sliceFrom? first.offset = some (String.ofList token.written)

/-- The places in the outcome of a scan, and the texts of its tokens, are what cursors show
that walk through the source. -/
inductive OutcomeWalked (file : Option String) (source : String) :
    Except LexicalError (List Token) → Prop
  | tokens {body : List Token} {last : Token} {cursor : Cursor} :
      (∀ token ∈ body, ∃ first final, (Cursor.start source).WalksTo first ∧
        first.WalksTo final ∧ token.ReadBetween file first final) →
      (Cursor.start source).WalksTo cursor → cursor.isAtEnd = true →
      last.span = .point file cursor.line cursor.column →
      OutcomeWalked file source (.ok (body ++ [last]))
  | error {error : LexicalError} {cursor : Cursor} :
      (Cursor.start source).WalksTo cursor →
      error.span = .point file cursor.line cursor.column →
      OutcomeWalked file source (.error error)

namespace Cursor

-- ---------------------------------------------------------------------------
-- What a cursor sees
-- ---------------------------------------------------------------------------

variable {cursor first : Cursor} {source : String} {front text rest : List Char} {c : Char}

theorem behind_start (source : String) : (start source).Behind source [] source.toList where
  source_eq := rfl
  whole := rfl
  offset := by simp [start]
  line := by simp [start, Coord.toNat_clamp, saturate]
  indent := rfl

namespace Behind

theorem split_eq (h : cursor.Behind source front rest) :
    source = String.ofList front ++ String.ofList rest := by
  rw [← String.ofList_append, ← h.whole, String.ofList_toList]

theorem isValid_offset (h : cursor.Behind source front rest) :
    cursor.offset.IsValid source :=
  String.Pos.Raw.isValid_iff_exists_append.mpr ⟨_, _, h.split_eq, h.offset⟩

theorem rest?_eq (h : cursor.Behind source front rest) :
    cursor.rest? = some (String.ofList rest) :=
  rest?_eq_some_iff.mpr ⟨_, h.source_eq.trans h.split_eq, h.offset⟩

theorem current?_eq (h : cursor.Behind source front rest) :
    cursor.current? = some (rest.headD '\x00') := by
  simp [current?, h.rest?_eq]

theorem peek?_eq (h : cursor.Behind source front rest) :
    cursor.peek? = some (rest.tail.headD '\x00') := by
  simp [peek?, h.rest?_eq]

theorem isAtEnd_iff (h : cursor.Behind source front rest) :
    cursor.isAtEnd = true ↔ rest = [] := by
  rw [isAtEnd, decide_eq_true_eq, h.source_eq, h.split_eq, h.offset, String.utf8ByteSize_append,
    String.byteIdx_rawEndPos, ← String.ofList_eq_empty_iff, ← String.utf8ByteSize_eq_zero_iff]
  omega

/-- The text between a cursor and one that has moved on from there. -/
theorem sliceFrom?_eq (h : first.Behind source front (text ++ rest))
    (h' : cursor.Behind source (front ++ text) rest) :
    cursor.sliceFrom? first.offset = some (String.ofList text) := by
  refine Text.between?_eq_some_iff.mpr ⟨String.ofList front, String.ofList rest, ?_, h.offset, ?_⟩
  · rw [h'.source_eq, h'.split_eq, String.ofList_append]
  · rw [h'.offset, String.ofList_append]

-- ---------------------------------------------------------------------------
-- Moves
-- ---------------------------------------------------------------------------

theorem past (h : cursor.Behind source front (c :: rest)) :
    (cursor.past c).Behind source (front ++ [c]) rest where
  source_eq := h.source_eq
  whole := by rw [h.whole, List.append_assoc, List.singleton_append]
  offset := by
    rw [Cursor.past, h.offset, String.ofList_append]
    ext
    simp
  line := by
    have hline := h.line
    by_cases hfeed : c = '\n'
    · rw [Cursor.past, if_pos hfeed, hfeed, Coord.toNat_clamp, hline, List.count_append,
        List.count_singleton_self]
      unfold saturate
      omega
    · simp [Cursor.past, hfeed, hline]
  indent := by
    have hindent := h.indent
    rw [Text.lastLine_concat]
    by_cases hfeed : c = '\n'
    · simp [Cursor.past, hfeed, saturate]
    · simp only [Cursor.past, if_neg hfeed, toNat_nextWord, hindent, saturate,
        List.length_append, List.length_singleton]
      omega

theorem advance?_end (h : cursor.Behind source front []) : cursor.advance? = some cursor := by
  simp [Cursor.advance?, h.rest?_eq]

theorem advance?_eq (h : cursor.Behind source front (c :: rest)) :
    cursor.advance? = some (cursor.past c) := by
  simp [Cursor.advance?, h.rest?_eq]

/-- The cursor takes the longest run of characters with the property. -/
theorem exists_eatWhile? (h : cursor.Behind source front rest) (property : Char → Bool) :
    ∃ next, cursor.eatWhile? property = some next ∧
      next.Behind source (front ++ rest.takeWhile property) (rest.dropWhile property) := by
  induction rest generalizing cursor front with
  | nil =>
    have hend := h.isAtEnd_iff.mpr rfl
    exact ⟨cursor, eatWhile?_of_isAtEnd hend, by simpa using h⟩
  | cons c rest ih =>
    have hinside : cursor.isAtEnd = false := by simp [Bool.eq_false_iff, h.isAtEnd_iff]
    have hcurrent : cursor.current? = some c := h.current?_eq
    cases hc : property c with
    | false =>
      refine ⟨cursor, eatWhile?_of_stop hcurrent hc, ?_⟩
      simpa [hc] using h
    | true =>
      obtain ⟨next, hnext, hbehind⟩ := ih h.past
      rw [eatWhile?_of_advance? hinside hcurrent hc h.advance?_eq]
      exact ⟨next, hnext, by simpa [hc] using hbehind⟩

theorem exists_move? (h : cursor.Behind source front rest) (move : Move) :
    ∃ taken later next, rest = taken ++ later ∧ cursor.move? move = some next ∧
      next.Behind source (front ++ taken) later := by
  cases move with
  | advance =>
    cases rest with
    | nil => exact ⟨[], [], cursor, rfl, h.advance?_end, by rwa [List.append_nil]⟩
    | cons c rest => exact ⟨[c], rest, cursor.past c, rfl, h.advance?_eq, h.past⟩
  | eatWhile property =>
    obtain ⟨next, hnext, hbehind⟩ := h.exists_eatWhile? property
    exact ⟨_, _, next, List.takeWhile_append_dropWhile.symm, hnext, hbehind⟩

theorem exists_walk? (h : cursor.Behind source front rest) (moves : List Move) :
    ∃ taken later next, rest = taken ++ later ∧ cursor.walk? moves = some next ∧
      next.Behind source (front ++ taken) later := by
  induction moves generalizing cursor front rest with
  | nil => exact ⟨[], rest, cursor, rfl, rfl, by rwa [List.append_nil]⟩
  | cons move moves ih =>
    obtain ⟨taken, middle, between, rfl, hmove, hbetween⟩ := h.exists_move? move
    obtain ⟨taken', later, next, rfl, hwalk, hnext⟩ := ih hbetween
    refine ⟨taken ++ taken', later, next, (List.append_assoc ..).symm, ?_, ?_⟩
    · rw [walk?, hmove]
      exact hwalk
    · rwa [← List.append_assoc]

theorem sound (h : cursor.Behind source front rest) : cursor.Sound source front rest where
  toBehind := h
  isValid := h.isValid_offset
  rest? := h.rest?_eq
  current? := h.current?_eq
  peek? := h.peek?_eq
  isAtEnd := h.isAtEnd_iff
  advance?_end := by
    rintro rfl
    exact h.advance?_end
  advance? := by
    rintro c later rfl
    exact ⟨_, h.advance?_eq, h.past⟩
  eatWhile? := by
    intro property
    obtain ⟨next, hnext, hbehind⟩ := h.exists_eatWhile? property
    obtain ⟨hsplit, hrun, hlater⟩ := run_eq_iff.mp ⟨rfl, rfl⟩
    exact ⟨_, _, next, hsplit, hrun, hlater, hnext, hbehind⟩

end Behind

-- ---------------------------------------------------------------------------
-- Cursors and positions
-- ---------------------------------------------------------------------------

namespace Behind

theorem line_eq (h : cursor.Behind source front rest) :
    cursor.line = (Position.start.after front).line := by
  refine Coord.toNat_injective ?_
  rw [h.line, Position.after_start, Position.line, Coord.toNat_clamp_succ]

theorem column_eq (h : cursor.Behind source front rest) :
    cursor.column = (Position.start.after front).column := by
  refine Coord.toNat_injective ?_
  rw [Cursor.column, h.indent, Position.after_start, Position.column, Coord.toNat_clamp,
    Coord.toNat_clamp, saturate]
  dsimp only
  omega

theorem lastColumn_eq (h : cursor.Behind source front rest) :
    cursor.lastColumn = (Position.start.after front).lastColumn := by
  refine Coord.toNat_injective ?_
  rw [Cursor.lastColumn, h.indent, Position.after_start, Position.lastColumn, Coord.toNat_clamp,
    Coord.toNat_clamp, saturate]
  dsimp only
  omega

/-- A cursor can be moved behind any part of what is ahead of it. -/
theorem exists_walksTo (h : cursor.Behind source front (text ++ rest)) :
    ∃ next, cursor.WalksTo next ∧ next.Behind source (front ++ text) rest := by
  induction text generalizing cursor front with
  | nil => exact ⟨cursor, ⟨[], rfl⟩, by rwa [List.append_nil]⟩
  | cons c text ih =>
    have hstep : cursor.Behind source front (c :: (text ++ rest)) := h
    obtain ⟨next, ⟨moves, hwalk⟩, hnext⟩ := ih hstep.past
    refine ⟨next, ⟨.advance :: moves, ?_⟩, by rwa [List.append_assoc] at hnext⟩
    rw [walk?, move?, hstep.advance?_eq]
    exact hwalk

end Behind

end Cursor

/-- A place of a scan is the place of a cursor that walked there. -/
theorem Span.exists_point_cursor {file : Option String} {source : String} {front : List Char}
    (h : front <+: source.toList) : ∃ cursor, (Cursor.start source).WalksTo cursor ∧
      (cursor.isAtEnd = true ↔ front = source.toList) ∧
      point file (Position.start.after front).line (Position.start.after front).column
        = point file cursor.line cursor.column := by
  obtain ⟨rest, hrest⟩ := h
  have hstart := Cursor.behind_start source
  rw [← hrest] at hstart
  obtain ⟨cursor, hwalk, hcursor⟩ := hstart.exists_walksTo
  rw [List.nil_append] at hcursor
  refine ⟨cursor, hwalk, ?_, by rw [hcursor.line_eq, hcursor.column_eq]⟩
  rw [hcursor.isAtEnd_iff, ← hrest, List.self_eq_append_right]

theorem Token.exists_readBetween {file : Option String} {source : String}
    {place : List Char × Lexeme} (h : place.1 ++ place.2.text <+: source.toList) :
    ∃ first last, (Cursor.start source).WalksTo first ∧ first.WalksTo last ∧
      (ofPlaced file place).ReadBetween file first last := by
  obtain ⟨rest, hrest⟩ := h
  have hstart := Cursor.behind_start source
  rw [← hrest, List.append_assoc] at hstart
  obtain ⟨first, hfirst, hbefore⟩ := hstart.exists_walksTo
  obtain ⟨last, hlast, hbehind⟩ := hbefore.exists_walksTo
  rw [List.nil_append] at hbefore hbehind
  refine ⟨first, last, hfirst, hlast, ?_, ?_⟩
  · rw [hbefore.line_eq, hbefore.column_eq, hbehind.lastColumn_eq, Position.after_append]
    rfl
  · rw [hbefore.sliceFrom?_eq hbehind, written_ofPlaced]

theorem tokenize_walked (file : Option String) (source : String) :
    OutcomeWalked file source (tokenize file source) := by
  cases houtcome : tokenize file source with
  | ok tokens =>
    obtain ⟨pieces, htiles, rfl⟩ := tokenize_eq_ok_iff.mp houtcome
    obtain ⟨cursor, hwalk, hend, hpoint⟩ := Span.exists_point_cursor List.prefix_rfl
    refine .tokens ?_ hwalk (hend.mpr rfl) hpoint
    intro token htoken
    obtain ⟨place, hplace, rfl⟩ := List.mem_map.mp htoken
    exact Token.exists_readBetween (htiles.spec_of_mem_placed hplace).1
  | error error =>
    obtain ⟨pieces, c, rest, stop, htiles, hread, rfl⟩ := tokenize_eq_error_iff.mp houtcome
    obtain ⟨later, hsplit, -⟩ := Piece.breaks_of_read hread
    have hfront : pieces.flatMap Piece.text ++ stop.passed <+: source.toList :=
      ⟨later, by rw [List.append_assoc, ← hsplit, htiles.flatMap_append]⟩
    obtain ⟨cursor, hwalk, -, hpoint⟩ := Span.exists_point_cursor hfront
    exact .error hwalk hpoint

theorem Cursor.walk?_spec (source : String) :
    (∀ earlier later : List Move, ∃ (mark cursor : Cursor) (front text rest : List Char),
      (start source).walk? earlier = some mark ∧ mark.walk? later = some cursor ∧
      mark.Sound source front (text ++ rest) ∧ cursor.Sound source (front ++ text) rest ∧
      cursor.sliceFrom? mark.offset = some (String.ofList text)) ∧
    ∀ file : Option String, OutcomeWalked file source (tokenize file source) := by
  refine ⟨fun earlier later => ?_, fun file => tokenize_walked file source⟩
  obtain ⟨front, ahead, mark, -, hearlier, hmark⟩ := (behind_start source).exists_walk? earlier
  obtain ⟨text, rest, cursor, rfl, hlater, hcursor⟩ := hmark.exists_walk? later
  rw [List.nil_append] at hmark hcursor
  exact ⟨mark, cursor, front, text, rest, hearlier, hlater, hmark.sound, hcursor.sound,
    hmark.sliceFrom?_eq hcursor⟩

/-- A letter of two bytes and a line feed are passed, and a null character is not the end. -/
example : ((Cursor.start "é\n\x00").walk? [.advance, .advance]).map (fun cursor =>
    (cursor.offset.byteIdx, cursor.line.toNat, cursor.indent.toNat, cursor.isAtEnd))
      = some (3, 2, 0, false) := by
  decide +kernel

end KlangFront
