import KlangFront.Proofs.Comments
import KlangFront.Proofs.Literals
import KlangFront.Proofs.Numbers
import KlangFront.Proofs.Words

/-!
# Reading one piece

`Piece.read` accepts exactly the pieces of the grammar where they end
(`read_eq_ok_iff`), it accepts the longest piece there is (`longest_of_read`),
and where it stops a piece breaks off (`breaks_of_read`).
-/

namespace KlangFront.Piece

variable {c : Char} {rest after : List Char} {piece : Piece}

-- ---------------------------------------------------------------------------
-- Dispatch
-- ---------------------------------------------------------------------------

theorem read_of_isWhiteSpace (h : isWhiteSpace c = true) :
    read c rest = .ok (trivia [c], rest) := by
  rw [read, if_pos h]

theorem read_slash : read '/' rest = readSlash rest := by
  rw [read, if_neg (by decide), if_pos rfl]

theorem read_quote (quoted : Quoted) : read quoted.quote rest = readLiteral quoted rest := by
  cases quoted <;> simp [read, Quoted.quote, show isWhiteSpace '"' = false by decide,
    show isWhiteSpace '\'' = false by decide]

theorem read_sigil : read '$' rest = readSigil rest := by
  simp [read, show isWhiteSpace '$' = false by decide]

/-- A word character opens neither trivia, nor a literal, nor a name with a sigil. -/
theorem not_opening_of_isWordPart (h : isWordPart c = true) :
    isWhiteSpace c = false ∧ c ≠ '/' ∧ c ≠ '"' ∧ c ≠ '\'' ∧ c ≠ '$' :=
  ⟨isWhiteSpace_of_isWordPart h, ne_of_class rfl h, ne_of_class rfl h, ne_of_class rfl h,
    ne_of_class rfl h⟩

theorem read_of_isWordStart (h : isWordStart c = true) : read c rest = .ok (readWord c rest) := by
  obtain ⟨hspace, hslash, hstring, hcharacter, hsigil⟩ :=
    not_opening_of_isWordPart (isWordPart_of_isWordStart h)
  simp [read, hspace, hslash, hstring, hcharacter, hsigil, h]

theorem read_of_isDigit (h : c.isDigit = true) : read c rest = readNumber (c :: rest) := by
  obtain ⟨hspace, hslash, hstring, hcharacter, hsigil⟩ :=
    not_opening_of_isWordPart (isWordPart_of_isDigit h)
  simp [read, hspace, hslash, hstring, hcharacter, hsigil, isWordStart_of_isDigit h, h]

theorem read_of_unclaimed (h : Unclaimed c) : read c rest = readSymbol c rest := by
  obtain ⟨hspace, hword, hdigit, hother⟩ := h
  simp only [List.mem_cons, List.not_mem_nil, or_false, not_or] at hother
  simp [read, hspace, hword, hdigit, hother]

-- ---------------------------------------------------------------------------
-- Acceptance
-- ---------------------------------------------------------------------------

/-- Only a line comment depends on what comes behind it. -/
theorem endsBefore_trivia {text : List Char} (h : ¬ ['/', '/'] <+: text) (after : List Char) :
    (trivia text).EndsBefore after :=
  fun _ _ hline => absurd hline h

theorem not_lineComment_singleton (c : Char) : ¬ ['/', '/'] <+: [c] := by
  simp [List.cons_prefix_cons]

theorem not_lineComment_block (body : List Char) : ¬ ['/', '/'] <+: '/' :: '*' :: body := by
  simp [List.cons_prefix_cons]

theorem head_isWordStart {word : List Char} (h : Grammar.Word word)
    (hsplit : c :: rest = word ++ after) : isWordStart c = true := by
  obtain ⟨d, run, rfl, hd, -⟩ := h
  cases hsplit
  exact hd

theorem head_isDigit {number : List Char} (h : Grammar.Number number)
    (hsplit : c :: rest = number ++ after) : c.isDigit = true := by
  obtain ⟨whole, fraction, last, ⟨hsome, hall⟩, -, -, rfl⟩ := h
  cases whole with
  | nil => exact absurd rfl hsome
  | cons d whole =>
    cases hsplit
    exact hall c List.mem_cons_self

theorem readNumber_eq_ok_iff (h : c.isDigit = true) :
    readNumber (c :: rest) = .ok (piece, after) ↔ ∃ number, piece = .lexeme (.number number) ∧
      c :: rest = piece.text ++ after ∧ piece.WellFormed ∧ piece.EndsBefore after := by
  have hdigit : ∃ d ∈ (c :: rest).head?, d.isDigit = true := ⟨c, rfl, h⟩
  constructor
  · intro hread
    unfold readNumber at hread
    split at hread
    · next number remaining hnumber =>
      cases hread
      exact ⟨number, rfl, (Number.read_eq_ok_iff hdigit).mp hnumber⟩
    · cases hread
  · rintro ⟨number, rfl, hspec⟩
    have hnumber : Number.read (c :: rest) = .ok (number, after) :=
      (Number.read_eq_ok_iff hdigit).mpr hspec
    simp [readNumber, hnumber]

theorem readLiteral_eq_ok_iff {quoted : Quoted} : readLiteral quoted rest = .ok (piece, after) ↔
    ∃ body, piece = .lexeme (.literal quoted body) ∧ rest = body ++ quoted.quote :: after ∧
      piece.WellFormed := by
  constructor
  · intro hread
    unfold readLiteral at hread
    split at hread
    · next body remaining hbody =>
      cases hread
      exact ⟨body, rfl, Literal.read_eq_ok_iff.mp hbody⟩
    · cases hread
  · rintro ⟨body, rfl, hspec⟩
    simp [readLiteral, Literal.read_eq_ok_iff.mpr hspec]

theorem readSlash_line {body : List Char} (h : Comment.line rest = (body, after)) :
    readSlash ('/' :: rest) = .ok (trivia ('/' :: '/' :: body), after) := by
  simp [readSlash, h]

theorem readSlash_block {body : List Char} (h : Comment.close? rest = some (body, after)) :
    readSlash ('*' :: rest) = .ok (trivia ('/' :: '*' :: body), after) := by
  simp [readSlash, Comment.closeFrom?_eq, h]

theorem readSlash_open (h : Comment.close? rest = none) :
    readSlash ('*' :: rest) = .error ⟨.openComment, '/' :: '*' :: rest⟩ := by
  simp [readSlash, Comment.closeFrom?_eq, h]

theorem readSlash_symbol (h : ∀ d ∈ rest.head?, d ≠ '/' ∧ d ≠ '*') :
    readSlash rest = readSymbol '/' rest := by
  unfold readSlash
  split
  · exact absurd rfl (h '/' rfl).1
  · exact absurd rfl (h '*' rfl).2
  · rfl

/-- What stands behind a slash: a second one, a star, or neither. -/
theorem slash_cases (rest : List Char) : (∃ later, rest = '/' :: later) ∨
    (∃ later, rest = '*' :: later) ∨ ∀ d ∈ rest.head?, d ≠ '/' ∧ d ≠ '*' := by
  cases rest with
  | nil => exact .inr (.inr (by simp))
  | cons d later =>
    by_cases hline : d = '/'
    · exact .inl ⟨later, by rw [hline]⟩
    · by_cases hblock : d = '*'
      · exact .inr (.inl ⟨later, by rw [hblock]⟩)
      · exact .inr (.inr (by simp [hline, hblock]))

theorem spec_of_readSlash (h : readSlash rest = .ok (piece, after)) :
    piece.WellFormed ∧ piece.EndsBefore after := by
  rcases slash_cases rest with ⟨later, rfl⟩ | ⟨later, rfl⟩ | hother
  · rw [readSlash_line (Prod.eta _).symm] at h
    cases h
    obtain ⟨-, hbody, hend⟩ := Comment.line_eq_iff.mp (Prod.eta (Comment.line later)).symm
    exact ⟨.lineComment hbody, fun c hc _ => hend c hc⟩
  · cases hclose : Comment.close? later with
    | none =>
      rw [readSlash_open hclose] at h
      cases h
    | some split =>
      rw [readSlash_block hclose] at h
      cases h
      exact ⟨.blockComment (Comment.close?_eq_some_iff.mp hclose).2,
        endsBefore_trivia (not_lineComment_block _) _⟩
  · rw [readSlash_symbol hother] at h
    obtain ⟨sign, rfl, -, hend⟩ := (readSymbol_eq_ok_iff fun _ => hother).mp h
    exact ⟨trivial, hend⟩

theorem spec_of_word {word : List Char}
    (h : Grammar.Word word ∨ ∃ plain, Grammar.Word plain ∧ word = '$' :: plain)
    (hend : ∀ d ∈ after.head?, isWordPart d = false) :
    (lexeme (.ofWord word)).WellFormed ∧ (lexeme (.ofWord word)).EndsBefore after :=
  ⟨Lexeme.wellFormed_ofWord h, fun d hd => Lexeme.endsAt_ofWord.mpr (hend d hd)⟩

theorem spec_of_read (h : read c rest = .ok (piece, after)) :
    piece.WellFormed ∧ piece.EndsBefore after := by
  cases dispatch_read c rest with
  | whiteSpace first same =>
    cases h.symm.trans same
    exact ⟨.whiteSpace first, endsBefore_trivia (not_lineComment_singleton c) _⟩
  | slash first same => exact spec_of_readSlash (same ▸ h)
  | quote quoted first same =>
    obtain ⟨body, rfl, -, hbody⟩ := readLiteral_eq_ok_iff.mp (same ▸ h)
    exact ⟨hbody, fun d _ => trivial⟩
  | sigil first same =>
    obtain ⟨word, hword, -, hend, rfl⟩ := readSigil_eq_ok_iff.mp (same ▸ h)
    exact spec_of_word (.inr ⟨word, hword, rfl⟩) hend
  | word first same =>
    have hread := Except.ok.inj (same.symm.trans h)
    obtain ⟨word, hword, -, hend, rfl⟩ := (readWord_eq_iff_word first).mp hread
    exact spec_of_word (.inl hword) hend
  | digit first same =>
    obtain ⟨number, rfl, -, hspec⟩ := (readNumber_eq_ok_iff first).mp (same ▸ h)
    exact hspec
  | sign first same =>
    have hslash : c ≠ '/' := fun hc => first.2.2.2 (by simp [hc])
    have hread := (readSymbol_eq_ok_iff fun hc => absurd hc hslash).mp (same ▸ h)
    obtain ⟨sign, rfl, -, hend⟩ := hread
    exact ⟨trivial, hend⟩

theorem read_of_trivia {text : List Char} (h : Grammar.Trivia text)
    (hend : (trivia text).EndsBefore after) (hsplit : c :: rest = text ++ after) :
    read c rest = .ok (trivia text, after) := by
  cases h with
  | whiteSpace hspace =>
    cases hsplit
    exact read_of_isWhiteSpace hspace
  | lineComment hbody =>
    cases hsplit
    rw [read_slash]
    refine readSlash_line (Comment.line_eq_iff.mpr ⟨rfl, hbody, fun d hd => hend d hd ?_⟩)
    exact List.prefix_append ['/', '/'] _
  | blockComment hbody =>
    cases hsplit
    rw [read_slash]
    exact readSlash_block (Comment.close?_eq_some_iff.mpr ⟨rfl, hbody⟩)

theorem read_of_word {word : List Char} (h : Grammar.Word word)
    (hend : ∀ d ∈ after.head?, isWordPart d = false) (hsplit : c :: rest = word ++ after) :
    read c rest = .ok (lexeme (.ofWord word), after) := by
  have hstart := head_isWordStart h hsplit
  have hread := (readWord_eq_iff_word hstart).mpr ⟨word, h, hsplit, hend, rfl⟩
  rw [read_of_isWordStart hstart, hread]

theorem read_of_sigil {word : List Char} (h : Grammar.Word word)
    (hend : ∀ d ∈ after.head?, isWordPart d = false) :
    read '$' (word ++ after) = .ok (lexeme (.ofWord ('$' :: word)), after) := by
  rw [read_sigil]
  exact readSigil_eq_ok_iff.mpr ⟨word, h, rfl, hend, rfl⟩

theorem read_of_symbol {sign : Symbol} (hend : (lexeme (.symbol sign)).EndsBefore after)
    (hsplit : c :: rest = sign.spelling ++ after) :
    read c rest = .ok (lexeme (.symbol sign), after) := by
  cases hspelled : sign.spelling with
  | nil => cases sign <;> cases hspelled
  | cons d tail =>
    rw [hspelled] at hsplit
    obtain ⟨rfl, -⟩ := List.cons.inj hsplit
    rw [← hspelled] at hsplit
    by_cases hslash : c = '/'
    · subst hslash
      obtain rfl : sign = .division := by cases sign <;> cases hspelled; rfl
      obtain rfl : rest = after := (List.cons.inj hsplit).2
      have hnext : ∀ d ∈ rest.head?, d ≠ '/' ∧ d ≠ '*' := fun d hd => (hend d hd).2 rfl
      rw [read_slash, readSlash_symbol hnext]
      exact (readSymbol_eq_ok_iff fun _ => hnext).mpr ⟨_, rfl, hsplit, hend⟩
    · rw [read_of_unclaimed (Symbol.unclaimed_head hspelled hslash)]
      exact (readSymbol_eq_ok_iff fun hc => absurd hc hslash).mpr ⟨sign, rfl, hsplit, hend⟩

theorem read_of_lexeme {unit : Lexeme} (h : unit.WellFormed)
    (hend : (lexeme unit).EndsBefore after) (hsplit : c :: rest = unit.text ++ after) :
    read c rest = .ok (lexeme unit, after) := by
  cases unit with
  | identifier name =>
    obtain ⟨hname, hfree⟩ := h
    rw [← Lexeme.ofWord_eq_identifier hfree]
    rcases hname with hword | ⟨word, hword, rfl⟩
    · exact read_of_word hword hend hsplit
    · cases hsplit
      exact read_of_sigil hword hend
  | number digits =>
    have hdigit := head_isDigit h hsplit
    rw [read_of_isDigit hdigit]
    exact (readNumber_eq_ok_iff hdigit).mpr ⟨digits, rfl, hsplit, h, hend⟩
  | literal quoted body =>
    have hbody : c :: rest = quoted.quote :: (body ++ quoted.quote :: after) := by
      simpa [Lexeme.text] using hsplit
    cases hbody
    rw [read_quote]
    exact readLiteral_eq_ok_iff.mpr ⟨body, rfl, rfl, h⟩
  | keyword reserved =>
    rw [← Lexeme.ofWord_spelling reserved]
    exact read_of_word reserved.word_spelling hend hsplit
  | symbol sign => exact read_of_symbol hend hsplit

/-- Reading gives a piece exactly where the grammar has one and the next
character ends it. -/
theorem read_eq_ok_iff : read c rest = .ok (piece, after) ↔
    c :: rest = piece.text ++ after ∧ piece.WellFormed ∧ piece.EndsBefore after := by
  constructor
  · intro h
    exact ⟨(append_of_read h).symm, spec_of_read h⟩
  · rintro ⟨hsplit, hvalid, hend⟩
    cases piece with
    | trivia text => exact read_of_trivia hvalid hend hsplit
    | lexeme unit => exact read_of_lexeme hvalid hend hsplit

-- ---------------------------------------------------------------------------
-- The longest piece
-- ---------------------------------------------------------------------------

variable {other : Piece} {d : Char} {more tail : List Char}

/-- Another piece that is over before `tail` is the piece that was read. -/
theorem eq_of_read (h : read c rest = .ok (piece, after)) (hvalid : other.WellFormed)
    (hend : other.EndsBefore tail) (hsplit : c :: rest = other.text ++ tail) : piece = other := by
  have hother := read_eq_ok_iff.mpr ⟨hsplit, hvalid, hend⟩
  cases h.symm.trans hother
  rfl

theorem trivia_not_longer {text : List Char} (h : read c rest = .ok (piece, after))
    (hvalid : Grammar.Trivia text) (hlonger : text = piece.text ++ d :: more)
    (hd : d ∈ after.head?) (hsplit : c :: rest = text ++ tail) : False := by
  cases hvalid with
  | whiteSpace hspace =>
    have hlength := congrArg List.length hlonger
    have htaken := List.length_pos_iff.mpr (text_ne_nil_of_read h)
    simp at hlength
    omega
  | @lineComment body hbody =>
    obtain ⟨rfl, rfl⟩ : c = '/' ∧ rest = '/' :: (body ++ tail) := by simpa using hsplit
    rw [read_slash, readSlash_line (Prod.eta _).symm] at h
    cases h
    have hfeed : d = '\n' :=
      (Comment.line_eq_iff.mp (Prod.eta (Comment.line (body ++ tail))).symm).2.2 d hd
    have hmem : d ∈ '/' :: '/' :: body := hlonger ▸ List.mem_append_right _ List.mem_cons_self
    simp [hfeed, hbody] at hmem
  | @blockComment body hbody =>
    have hend : (trivia ('/' :: '*' :: body)).EndsBefore tail :=
      endsBefore_trivia (not_lineComment_block body) tail
    have hblock : (trivia ('/' :: '*' :: body)).WellFormed := Grammar.Trivia.blockComment hbody
    obtain rfl := eq_of_read h hblock hend hsplit
    simp [text] at hlonger

theorem word_not_longer {word : List Char} (h : read c rest = .ok (piece, after))
    (hword : Grammar.Word word) (hlonger : word = piece.text ++ d :: more)
    (hd : d ∈ after.head?) (hsplit : c :: rest = word ++ tail) : False := by
  have hstart := head_isWordStart hword hsplit
  rw [read_of_isWordStart hstart] at h
  obtain ⟨taken, -, -, hend, rfl⟩ := (readWord_eq_iff_word hstart).mp (Except.ok.inj h)
  have hpart := hword.isWordPart_of_mem d (hlonger ▸ List.mem_append_right _ List.mem_cons_self)
  rw [hend d hd] at hpart
  cases hpart

theorem sigil_not_longer {word : List Char} (h : read '$' rest = .ok (piece, after))
    (hword : Grammar.Word word) (hlonger : '$' :: word = piece.text ++ d :: more)
    (hd : d ∈ after.head?) : False := by
  rw [read_sigil] at h
  obtain ⟨taken, -, -, hend, rfl⟩ := readSigil_eq_ok_iff.mp h
  have hsame : word = taken ++ d :: more := by
    simpa [text, Lexeme.text_ofWord] using hlonger
  have hpart := hword.isWordPart_of_mem d (hsame ▸ List.mem_append_right _ List.mem_cons_self)
  rw [hend d hd] at hpart
  cases hpart

theorem number_not_longer {number : List Char} (h : read c rest = .ok (piece, after))
    (hnumber : Grammar.Number number) (hlonger : number = piece.text ++ d :: more)
    (hd : d ∈ after.head?) (hsplit : c :: rest = number ++ tail) : False := by
  have hdigit : c.isDigit = true := head_isDigit hnumber hsplit
  rw [read_of_isDigit hdigit] at h
  obtain ⟨taken, rfl, -, htaken, hend⟩ := (readNumber_eq_ok_iff hdigit).mp h
  exact Number.not_endsAt_of_longer htaken (hlonger ▸ hnumber) (hend d hd)

theorem symbol_not_longer {sign : Symbol} (h : read c rest = .ok (piece, after))
    (hlonger : sign.spelling = piece.text ++ d :: more)
    (hsplit : c :: rest = sign.spelling ++ tail) : False := by
  rcases sign.spelling_cases with ⟨first, hspelled⟩ | ⟨first, second, hspelled⟩
  · have htaken := List.length_pos_iff.mpr (text_ne_nil_of_read h)
    have hlength := congrArg List.length hlonger
    simp [hspelled] at hlength
    omega
  · have hend : (lexeme (.symbol sign)).EndsBefore tail :=
      fun e _ => Symbol.endsAt_of_pair hspelled
    have hvalid : (lexeme (.symbol sign)).WellFormed := trivial
    obtain rfl := eq_of_read h hvalid hend hsplit
    simp [text, Lexeme.text] at hlonger

theorem longest_of_read (h : read c rest = .ok (piece, after)) : piece.LongestBefore after := by
  rintro other hvalid ⟨tail, htail⟩
  have hsplit : c :: rest = other.text ++ tail := (append_of_read h).symm.trans htail.symm
  refine Nat.le_of_not_lt fun hlonger => ?_
  -- the other piece goes on where the one that was read is over
  have hfront : piece.text <+: other.text :=
    List.prefix_of_prefix_length_le ⟨after, rfl⟩ ⟨tail, htail⟩ (Nat.le_of_lt hlonger)
  obtain ⟨behind, hbehind⟩ := hfront
  cases behind with
  | nil => simp [← hbehind] at hlonger
  | cons d more =>
    have hd : d ∈ after.head? := by
      rw [← hbehind, List.append_assoc] at htail
      simp [← List.append_cancel_left htail]
    cases other with
    | trivia text => exact trivia_not_longer h hvalid hbehind.symm hd hsplit
    | lexeme unit =>
      cases unit with
      | identifier name =>
        rcases hvalid.1 with hword | ⟨word, hword, rfl⟩
        · exact word_not_longer h hword hbehind.symm hd hsplit
        · obtain ⟨rfl, rfl⟩ : c = '$' ∧ rest = word ++ tail := by
            simpa [text, Lexeme.text] using hsplit
          exact sigil_not_longer h hword hbehind.symm hd
      | number digits => exact number_not_longer h hvalid hbehind.symm hd hsplit
      | literal quoted body =>
        have hsame := eq_of_read h hvalid (fun e _ => trivial) hsplit
        simp [hsame] at hlonger
      | keyword reserved =>
        exact word_not_longer h reserved.word_spelling hbehind.symm hd hsplit
      | symbol sign => exact symbol_not_longer h hbehind.symm hsplit

-- ---------------------------------------------------------------------------
-- Broken pieces
-- ---------------------------------------------------------------------------

variable {stop : Stop}

theorem breaks_of_readNumber (hc : c.isDigit = true) (h : readNumber (c :: rest) = .error stop) :
    ∃ remaining, c :: rest = stop.passed ++ remaining ∧ stop.Breaks remaining := by
  unfold readNumber at h
  split at h
  · cases h
  · next hstop =>
    cases h
    exact Number.breaks_of_read ⟨c, rfl, hc⟩ hstop

theorem breaks_of_readLiteral {quoted : Quoted} (h : readLiteral quoted rest = .error stop) :
    ∃ remaining, quoted.quote :: rest = stop.passed ++ remaining ∧ stop.Breaks remaining := by
  unfold readLiteral at h
  split at h
  · cases h
  · next inner hinner =>
    cases h
    obtain ⟨remaining, rfl, hbreaks⟩ := Literal.breaks_of_read hinner
    exact ⟨remaining, by simp [Stop.behind], hbreaks⟩

theorem breaks_of_readSlash (h : readSlash rest = .error stop) :
    ∃ remaining, '/' :: rest = stop.passed ++ remaining ∧ stop.Breaks remaining := by
  rcases slash_cases rest with ⟨later, rfl⟩ | ⟨later, rfl⟩ | hother
  · rw [readSlash_line (Prod.eta _).symm] at h
    cases h
  · cases hclose : Comment.close? later with
    | some split =>
      rw [readSlash_block hclose] at h
      cases h
    | none =>
      rw [readSlash_open hclose] at h
      cases h
      exact ⟨[], by simp, .openComment (Comment.close?_eq_none_iff.mp hclose)⟩
  · -- a slash is itself a symbol, so here nothing breaks off
    have hread : readSlash rest = .ok (lexeme (.symbol .division), rest) := by
      rw [readSlash_symbol hother]
      refine (readSymbol_eq_ok_iff fun _ => hother).mpr ⟨.division, rfl, rfl, fun d hd => ?_⟩
      refine (Symbol.endsAt_of_char (c := '/') rfl fun _ => hother d hd).mpr ?_
      cases hpair : Symbol.ofPair? '/' d with
      | none => rfl
      | some sign =>
        have hspelled := Symbol.ofPair?_eq_some_iff.mp hpair
        cases sign <;> simp [Symbol.spelling] at hspelled
    cases hread.symm.trans h

theorem breaks_of_read (h : read c rest = .error stop) :
    ∃ remaining, c :: rest = stop.passed ++ remaining ∧ stop.Breaks remaining := by
  cases dispatch_read c rest with
  | whiteSpace first same => cases h.symm.trans same
  | slash first same => exact first ▸ breaks_of_readSlash (same ▸ h)
  | quote quoted first same => exact first ▸ breaks_of_readLiteral (same ▸ h)
  | sigil first same =>
    obtain ⟨hpassed, hbreaks⟩ := breaks_of_readSigil (same ▸ h)
    exact ⟨'$' :: rest, by rw [hpassed, first]; rfl, hbreaks⟩
  | word first same => cases h.symm.trans same
  | digit first same => exact breaks_of_readNumber first (same ▸ h)
  | sign first same =>
    obtain ⟨hpassed, hbreaks⟩ := breaks_of_readSymbol first (same ▸ h)
    exact ⟨c :: rest, by rw [hpassed]; rfl, hbreaks⟩

end KlangFront.Piece
