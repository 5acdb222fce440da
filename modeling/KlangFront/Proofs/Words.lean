import KlangFront.Proofs.CharacterClass
import KlangFront.Proofs.Grammar

/-!
# Reading words and symbols

A word takes the longest run of word characters and is then looked up among the
reserved words. A symbol takes two characters where these make one, and else one.
Both are over as soon as the next character cannot prolong them.
-/

namespace KlangFront

variable {c : Char} {rest after : List Char} {piece : Piece}

-- ---------------------------------------------------------------------------
-- Words
-- ---------------------------------------------------------------------------

theorem Lexeme.ofWord_eq_identifier {name : List Char}
    (h : ∀ reserved : Keyword, name ≠ reserved.spelling.toList) :
    Lexeme.ofWord name = .identifier name := by
  unfold Lexeme.ofWord
  split
  · next reserved hfound =>
    have hspelled := Keyword.ofSpelling?_eq_some_iff.mp hfound
    exact absurd (by rw [hspelled, String.toList_ofList]) (h reserved)
  · rfl

theorem Lexeme.ofWord_spelling (reserved : Keyword) :
    Lexeme.ofWord reserved.spelling.toList = .keyword reserved := by
  simp [Lexeme.ofWord, Keyword.ofSpelling?_spelling]

theorem Lexeme.wellFormed_ofWord {word : List Char}
    (h : Grammar.Word word ∨ ∃ plain, Grammar.Word plain ∧ word = '$' :: plain) :
    (Lexeme.ofWord word).WellFormed := by
  unfold Lexeme.ofWord
  split
  · trivial
  · next hnone =>
    refine ⟨h, fun reserved hsame => ?_⟩
    rw [hsame, String.ofList_toList, Keyword.ofSpelling?_spelling] at hnone
    cases hnone

theorem Lexeme.endsAt_ofWord {word : List Char} :
    (Lexeme.ofWord word).EndsAt c ↔ isWordPart c = false := by
  unfold Lexeme.ofWord
  split <;> rfl

theorem Grammar.Word.isWordPart_of_mem {word : List Char} (h : Grammar.Word word) :
    ∀ d ∈ word, isWordPart d = true := by
  obtain ⟨c, run, rfl, hc, hrun⟩ := h
  intro d hd
  rcases List.mem_cons.mp hd with rfl | hd
  · exact isWordPart_of_isWordStart hc
  · exact hrun d hd

theorem Keyword.word_spelling (reserved : Keyword) : Grammar.Word reserved.spelling.toList := by
  cases reserved <;> exact ⟨_, _, rfl, by decide, List.all_eq_true.mp (by decide)⟩

theorem Piece.readWord_eq_iff : Piece.readWord c rest = (piece, after) ↔
    ∃ run, rest = run ++ after ∧ (∀ d ∈ run, isWordPart d = true) ∧
      (∀ d ∈ after.head?, isWordPart d = false) ∧ piece = .lexeme (.ofWord (c :: run)) := by
  rw [Piece.readWord, Prod.mk.injEq]
  constructor
  · rintro ⟨rfl, rfl⟩
    obtain ⟨hsplit, hrun, hend⟩ := run_eq_iff.mp ⟨rfl, rfl⟩
    exact ⟨_, hsplit, hrun, hend, rfl⟩
  · rintro ⟨run, hsplit, hrun, hend, rfl⟩
    obtain ⟨htake, hdrop⟩ := run_eq_iff.mpr ⟨hsplit, hrun, hend⟩
    rw [htake, hdrop]
    exact ⟨rfl, rfl⟩

theorem Piece.readWord_eq_iff_word (hc : isWordStart c = true) :
    Piece.readWord c rest = (piece, after) ↔
      ∃ word, Grammar.Word word ∧ c :: rest = word ++ after ∧
        (∀ d ∈ after.head?, isWordPart d = false) ∧ piece = .lexeme (.ofWord word) := by
  rw [readWord_eq_iff]
  constructor
  · rintro ⟨run, rfl, hrun, hend, rfl⟩
    exact ⟨c :: run, ⟨c, run, rfl, hc, hrun⟩, rfl, hend, rfl⟩
  · rintro ⟨_, ⟨d, run, rfl, -, hrun⟩, hsplit, hend, rfl⟩
    cases hsplit
    exact ⟨run, rfl, hrun, hend, rfl⟩

theorem Piece.readSigil_eq_ok_iff : Piece.readSigil rest = .ok (piece, after) ↔
    ∃ word, Grammar.Word word ∧ rest = word ++ after ∧
      (∀ d ∈ after.head?, isWordPart d = false) ∧ piece = .lexeme (.ofWord ('$' :: word)) := by
  constructor
  · intro h
    unfold readSigil at h
    split at h
    · next hstart =>
      obtain ⟨run, hsplit, hrun, hend, rfl⟩ := readWord_eq_iff.mp (Except.ok.inj h)
      obtain ⟨c, hc, hword⟩ := (Option.any_eq_true ..).mp hstart
      obtain ⟨later, rfl⟩ := List.head?_eq_some_iff.mp hc
      cases run with
      | nil =>
        obtain rfl : c :: later = after := hsplit
        have hpart := isWordPart_of_isWordStart hword
        rw [hend c rfl] at hpart
        cases hpart
      | cons d run =>
        cases hsplit
        have htail : ∀ e ∈ run, isWordPart e = true :=
          fun e he => hrun e (List.mem_cons_of_mem c he)
        exact ⟨c :: run, ⟨c, run, rfl, hword, htail⟩, rfl, hend, rfl⟩
    · cases h
  · rintro ⟨word, hword, rfl, hend, rfl⟩
    have hall := hword.isWordPart_of_mem
    obtain ⟨c, run, rfl, hc, -⟩ := hword
    have hread : readWord '$' (c :: run ++ after)
        = (.lexeme (.ofWord ('$' :: c :: run)), after) :=
      readWord_eq_iff.mpr ⟨c :: run, rfl, hall, hend, rfl⟩
    simpa [readSigil, hc] using hread

theorem Piece.breaks_of_readSigil {stop : Stop} (h : Piece.readSigil rest = .error stop) :
    stop.passed = [] ∧ stop.Breaks ('$' :: rest) := by
  unfold readSigil at h
  split at h
  · cases h
  · next hnone =>
    cases h
    exact ⟨rfl, .danglingSigil fun c hc => by simpa [Option.mem_def.mp hc] using hnone⟩

-- ---------------------------------------------------------------------------
-- Symbols
-- ---------------------------------------------------------------------------

theorem Symbol.spelling_cases (sign : Symbol) :
    (∃ c, sign.spelling = [c]) ∨ ∃ c d, sign.spelling = [c, d] := by
  cases sign <;> simp [Symbol.spelling]

theorem Symbol.unclaimed_head {sign : Symbol} {tail : List Char} (h : sign.spelling = c :: tail)
    (hslash : c ≠ '/') : Piece.Unclaimed c := by
  revert hslash
  unfold Piece.Unclaimed
  cases sign <;> cases h <;> decide

theorem Symbol.endsAt_of_pair {sign : Symbol} {second d : Char}
    (h : sign.spelling = [c, second]) : (Lexeme.symbol sign).EndsAt d := by
  constructor
  · intro longer hlonger
    rw [h] at hlonger
    rcases longer.spelling_cases with ⟨_, hone⟩ | ⟨_, _, htwo⟩ <;> simp_all
  · rintro rfl
    cases h

theorem Symbol.endsAt_of_char {sign : Symbol} {d : Char} (h : sign.spelling = [c])
    (hslash : c = '/' → d ≠ '/' ∧ d ≠ '*') :
    (Lexeme.symbol sign).EndsAt d ↔ Symbol.ofPair? c d = none := by
  constructor
  · rintro ⟨hlonger, -⟩
    cases hpair : Symbol.ofPair? c d with
    | none => rfl
    | some longer =>
      refine absurd ?_ (hlonger longer)
      rw [Symbol.ofPair?_eq_some_iff.mp hpair, h]
      rfl
  · intro hnone
    refine ⟨fun longer hlonger => ?_, ?_⟩
    · rw [h] at hlonger
      rw [Symbol.ofPair?_eq_some_iff.mpr hlonger] at hnone
      cases hnone
    · rintro rfl
      cases h
      exact hslash rfl

theorem Piece.readSymbol_eq_ok_iff
    (hslash : c = '/' → ∀ d ∈ rest.head?, d ≠ '/' ∧ d ≠ '*') :
    Piece.readSymbol c rest = .ok (piece, after) ↔
      ∃ sign, piece = .lexeme (.symbol sign) ∧ c :: rest = sign.spelling ++ after ∧
        piece.EndsBefore after := by
  constructor
  · intro h
    have hwhole := append_of_readSymbol h
    unfold readSymbol at h
    split at h
    · next sign hpair =>
      cases h
      obtain ⟨second, -, hsecond⟩ := Option.bind_eq_some_iff.mp hpair
      have hspelled := Symbol.ofPair?_eq_some_iff.mp hsecond
      exact ⟨sign, rfl, hwhole.symm, fun d _ => Symbol.endsAt_of_pair hspelled⟩
    · next hnone =>
      split at h
      · next sign hsingle =>
        cases h
        have hspelled := Symbol.ofChar?_eq_some_iff.mp hsingle
        refine ⟨sign, rfl, hwhole.symm, fun d hd => ?_⟩
        refine (Symbol.endsAt_of_char hspelled fun hc => hslash hc d hd).mpr ?_
        simpa [Option.mem_def.mp hd] using hnone
      · split at h
        · cases h
        · split at h <;> cases h
  · rintro ⟨sign, rfl, hsplit, hend⟩
    unfold readSymbol
    rcases sign.spelling_cases with ⟨d, hspelled⟩ | ⟨d, second, hspelled⟩
    · rw [hspelled] at hsplit
      cases hsplit
      have hnone : after.head?.bind (Symbol.ofPair? c) = none := by
        cases hd : after.head? with
        | none => rfl
        | some d =>
          exact (Symbol.endsAt_of_char hspelled fun hc => hslash hc d hd).mp (hend d hd)
      simp [hnone, Symbol.ofChar?_eq_some_iff.mpr hspelled]
    · rw [hspelled] at hsplit
      cases hsplit
      simp [Symbol.ofPair?_eq_some_iff.mpr hspelled]

theorem Piece.breaks_of_readSymbol {stop : Stop} (hc : Piece.Unclaimed c)
    (h : Piece.readSymbol c rest = .error stop) : stop.passed = [] ∧ stop.Breaks (c :: rest) := by
  obtain ⟨hspace, hword, hdigit, hother⟩ := hc
  unfold readSymbol at h
  split at h
  · cases h
  · next hpair =>
    have hsecond : ∀ d, Symbol.ofPair? c d ≠ none → rest.head? ≠ some d := by
      intro d hd hhead
      exact hd (by simpa [hhead] using hpair)
    split at h
    · cases h
    · next hsingle =>
      split at h
      · next hand =>
        cases h
        subst hand
        exact ⟨rfl, .loneAmpersand (hsecond '&' (by decide))⟩
      · next hand =>
        split at h
        · next hbar =>
          cases h
          subst hbar
          exact ⟨rfl, .loneBar (hsecond '|' (by decide))⟩
        · next hbar =>
          cases h
          exact ⟨rfl, .strayCharacter hspace hword hdigit (by simp_all) hsingle⟩

end KlangFront
