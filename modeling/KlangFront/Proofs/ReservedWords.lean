import KlangFront.Proofs.TokenSpans
import Mathlib.Data.Set.Function

/-!
# Reserved words

`Keyword.table` lists the reserved words. The lookup does not walk through it: it rules
most texts out by their length in bytes and their first character and compares the
others with the words of their length. `Keyword.ofSpelling?_table` says that this makes no
difference on any text, that words and kinds of reserved words correspond one to one,
and that a token has such a kind exactly if the source spells such a word at its place.
-/

namespace KlangFront

namespace Keyword

/-- The reserved words, each with what it stands for. -/
def table : List (String × Keyword) := [
  ("return", kwReturn), ("if", kwIf), ("otherwise", kwOtherwise), ("afterall", kwAfterall),
  ("for", kwFor), ("while", kwWhile), ("break", kwBreak), ("continue", kwContinue),
  ("try", kwTry), ("catch", kwCatch), ("public", kwPublic), ("private", kwPrivate),
  ("protected", kwProtected), ("static", kwStatic), ("true", kwTrue), ("false", kwFalse),
  ("null", kwNull), ("fresh", kwFresh), ("integer", kwInteger), ("double", kwDouble),
  ("boolean", kwBoolean), ("character", kwCharacter), ("String", kwString), ("void", kwVoid)]

def words : List String := table.map Prod.fst

/-- No reserved word starts with this character. -/
def OpensNone (c : Char) : Prop := c = '$' ∨ c = '_' ∨ 127 < c.toNat

end Keyword

/-- A token stands between two offsets of the source, and its kind is that of a reserved word
exactly if a reserved word stands there. -/
structure Token.ReservedAsWritten (file : Option String) (source : List Char) (token : Token)
    (extent : Nat × Nat) : Prop extends Token.Occupies file source token extent where
  isKeyword : token.kind.isKeyword = true ↔
    String.ofList ((source.take extent.2).drop extent.1) ∈ Keyword.words
  opensNone : ∀ c ∈ ((source.take extent.2).drop extent.1).head?, Keyword.OpensNone c →
    token.kind.isKeyword = false

-- ---------------------------------------------------------------------------
-- The table
-- ---------------------------------------------------------------------------

namespace Keyword

variable {text : String} {word : Keyword} {c : Char}

theorem mem_table_iff : (text, word) ∈ table ↔ word.spelling = text := by
  constructor
  · intro h
    have hrows : ∀ row ∈ table, row.2.spelling = row.1 := by decide +kernel
    exact hrows _ h
  · rintro rfl
    cases word <;> decide +kernel

theorem mem_words_iff : text ∈ words ↔ ∃ word : Keyword, word.spelling = text := by
  constructor
  · intro h
    obtain ⟨row, hrow, rfl⟩ := List.mem_map.mp h
    exact ⟨row.2, mem_table_iff.mp hrow⟩
  · rintro ⟨word, hword⟩
    exact List.mem_map.mpr ⟨_, mem_table_iff.mpr hword, rfl⟩

theorem ofSpelling?_eq_none_iff : ofSpelling? text = none ↔ text ∉ words := by
  rw [mem_words_iff, Option.eq_none_iff_forall_ne_some, not_exists]
  exact forall_congr' fun _ => not_congr ofSpelling?_eq_some_iff

theorem lookup_table (text : String) : table.lookup text = ofSpelling? text := by
  cases hfound : ofSpelling? text with
  | none =>
    refine List.lookup_eq_none_iff.mpr fun row hrow => ?_
    simp only [bne_iff_ne]
    rintro rfl
    exact ofSpelling?_eq_none_iff.mp hfound (List.mem_map_of_mem hrow)
  | some word =>
    obtain rfl := ofSpelling?_eq_some_iff.mp hfound
    cases word <;> rfl

theorem head_spelling (word : Keyword) : word.spelling.toList.head?.any Char.isAlpha = true := by
  cases word <;> rfl

theorem not_mem_words {text : List Char} (h : text.head?.any Char.isAlpha = false) :
    String.ofList text ∉ words := by
  intro hmem
  obtain ⟨word, hword⟩ := mem_words_iff.mp hmem
  have hhead := word.head_spelling
  rw [hword, String.toList_ofList, h] at hhead
  cases hhead

theorem isAlpha_iff : c.isAlpha = true ↔
    (65 ≤ c.toNat ∧ c.toNat ≤ 90) ∨ (97 ≤ c.toNat ∧ c.toNat ≤ 122) := by
  have hranges : c.isAlpha = (decide (65 ≤ c.val ∧ c.val ≤ 90) ||
      (decide (97 ≤ c.val) && decide (c.val ≤ 122))) := rfl
  simp [hranges, UInt32.le_iff_toNat_le, ← Char.toNat_val]

theorem isAlpha_of_isDigit (h : c.isDigit = true) : c.isAlpha = false := by
  obtain ⟨habove, hbelow⟩ := asciiDigits_contains h
  simp only [asciiDigits] at habove hbelow
  rw [Bool.eq_false_iff, Ne, isAlpha_iff]
  omega

theorem OpensNone.isAlpha (h : OpensNone c) : c.isAlpha = false := by
  rcases h with rfl | rfl | h
  · rfl
  · rfl
  · rw [Bool.eq_false_iff, Ne, isAlpha_iff]
    omega

/-- Words and kinds of reserved words correspond one to one, through the kind that a scan
gives to a word. -/
theorem bijOn_kind : Set.BijOn (fun text : String => (Lexeme.ofWord text.toList).kind)
    {text | text ∈ words} {kind | kind.isKeyword = true} := by
  have hkind (word : Keyword) :
      (Lexeme.ofWord word.spelling.toList).kind = .keyword word := by
    rw [Lexeme.ofWord_spelling]
    rfl
  refine ⟨?_, ?_, ?_⟩
  · intro text htext
    obtain ⟨word, rfl⟩ := mem_words_iff.mp htext
    simp only [hkind]
    rfl
  · intro text htext other hother hsame
    obtain ⟨word, rfl⟩ := mem_words_iff.mp htext
    obtain ⟨word', rfl⟩ := mem_words_iff.mp hother
    simp only [hkind, TokenKind.keyword.injEq] at hsame
    rw [hsame]
  · intro kind hkeyword
    cases kind with
    | keyword word => exact ⟨word.spelling, mem_words_iff.mpr ⟨word, rfl⟩, hkind word⟩
    | _ => cases hkeyword

end Keyword

-- ---------------------------------------------------------------------------
-- Tokens
-- ---------------------------------------------------------------------------

/-- A lexeme is written like a reserved word only if it is one. -/
theorem Lexeme.WellFormed.isKeyword_iff {unit : Lexeme} (h : unit.WellFormed) :
    unit.kind.isKeyword = true ↔ String.ofList unit.text ∈ Keyword.words := by
  -- names apart, no other kind of lexeme starts like a reserved word
  cases unit with
  | identifier name =>
    refine ⟨nofun, fun hmem => ?_⟩
    obtain ⟨word, hword⟩ := Keyword.mem_words_iff.mp hmem
    exact absurd (by rw [hword, String.toList_ofList]; rfl) (h.2 word)
  | number digits =>
    refine ⟨nofun, fun hmem => absurd hmem (Keyword.not_mem_words ?_)⟩
    obtain ⟨c, rest, hdigits⟩ := List.exists_cons_of_ne_nil h.text_ne_nil
    have hsplit : c :: rest = digits ++ [] := by rw [← hdigits, List.append_nil]; rfl
    rw [hdigits]
    exact Keyword.isAlpha_of_isDigit (Piece.head_isDigit h hsplit)
  | literal quoted body =>
    refine ⟨nofun, fun hmem => absurd hmem (Keyword.not_mem_words ?_)⟩
    cases quoted <;> rfl
  | keyword word =>
    exact ⟨fun _ => Keyword.mem_words_iff.mpr ⟨word, String.ofList_toList.symm⟩, fun _ => rfl⟩
  | symbol sign =>
    refine ⟨nofun, fun hmem => absurd hmem (Keyword.not_mem_words ?_)⟩
    cases sign <;> rfl

theorem Token.reservedAsWritten_ofPlaced {file : Option String} {source : List Char}
    {place : List Char × Lexeme} (hplace : place.1 ++ place.2.text <+: source)
    (hvalid : place.2.WellFormed) : (ofPlaced file place).ReservedAsWritten file source
      (place.1.length, (place.1 ++ place.2.text).length) := by
  have hoccupies : (ofPlaced file place).Occupies file source _ := occupies_ofPlaced hplace hvalid
  have hwritten : (ofPlaced file place).written = place.2.text := written_ofPlaced place
  have hkeyword := hvalid.isKeyword_iff
  rw [← hwritten, ← hoccupies.text] at hkeyword
  refine ⟨hoccupies, hkeyword, fun c hc hopens => ?_⟩
  rw [Bool.eq_false_iff]
  intro hreserved
  refine Keyword.not_mem_words ?_ (hkeyword.mp hreserved)
  rw [Option.mem_def.mp hc]
  exact hopens.isAlpha

theorem Keyword.ofSpelling?_table :
    (∀ text : String, ofSpelling? text = table.lookup text) ∧
    (∀ (text : String) (word : Keyword), ofSpelling? text = some word ↔ (text, word) ∈ table) ∧
    (∀ text : String, ofSpelling? text = none ↔ text ∉ words) ∧
    words.length = 24 ∧ words.Nodup ∧
    Set.BijOn (fun text : String => (Lexeme.ofWord text.toList).kind)
      {text | text ∈ words} {kind | kind.isKeyword = true} ∧
    (∀ text : String, (∃ c ∈ text.toList.head?, OpensNone c) → ofSpelling? text = none) ∧
    ∀ (file : Option String) (source : String) (tokens : List Token),
      tokenize file source = .ok tokens → ∃ pieces body last,
        Lossless source.toList pieces tokens ∧ tokens = body ++ [last] ∧
          last.kind = .endOfInput ∧
          List.Forall₂ (Token.ReservedAsWritten file source.toList) body
            (Piece.extents 0 pieces) := by
  refine ⟨fun text => (lookup_table text).symm,
    fun text word => ofSpelling?_eq_some_iff.trans mem_table_iff.symm,
    fun text => ofSpelling?_eq_none_iff, rfl, by decide +kernel, bijOn_kind, ?_, ?_⟩
  · rintro text ⟨c, hc, hopens⟩
    rw [ofSpelling?_eq_none_iff, ← String.ofList_toList (s := text)]
    refine not_mem_words ?_
    rw [Option.mem_def.mp hc]
    exact hopens.isAlpha
  · intro file source tokens h
    obtain ⟨pieces, htiles, rfl⟩ := tokenize_eq_ok_iff.mp h
    refine ⟨pieces, _, _, htiles.lossless _, rfl, rfl, ?_⟩
    have hextents := Piece.extents_eq [] pieces
    rw [List.length_nil] at hextents
    rw [hextents, List.forall₂_map_left_iff, List.forall₂_map_right_iff, List.forall₂_same]
    intro place hplace
    obtain ⟨hfront, hvalid⟩ := htiles.spec_of_mem_placed hplace
    exact Token.reservedAsWritten_ofPlaced hfront hvalid

/-- A reserved word, and three names that hold one behind a first character of their own. -/
theorem Keyword.ofSpelling?_table_behind_openers :
    let source := "if$if _if ıf"
    let tokens : List Token := [.ofLexeme none ⟨0, 0⟩ (.keyword .kwIf),
      .ofLexeme none ⟨0, 2⟩ (.identifier ['$', 'i', 'f']),
      .ofLexeme none ⟨0, 6⟩ (.identifier ['_', 'i', 'f']),
      .ofLexeme none ⟨0, 10⟩ (.identifier ['ı', 'f']), .endOfInput none ⟨0, 12⟩]
    ofSpelling? "ıf" = none ∧ tokenize none source = .ok tokens ∧ ∃ pieces body last,
      tokens = body ++ [last] ∧
        List.Forall₂ (Token.ReservedAsWritten none source.toList) body
          (Piece.extents 0 pieces) := by
  intro source tokens
  obtain ⟨-, -, -, -, -, -, hopens, htokens⟩ := ofSpelling?_table
  have h : tokenize none source = .ok tokens := by decide +kernel
  obtain ⟨pieces, body, last, -, hlast, -, hwritten⟩ := htokens none source tokens h
  exact ⟨hopens "ıf" ⟨'ı', by decide +kernel, .inr (.inr (by decide))⟩, h, pieces, body, last,
    hlast, hwritten⟩

end KlangFront
