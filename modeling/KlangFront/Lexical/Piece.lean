import KlangFront.Lexical.Comment
import KlangFront.Lexical.Lexeme
import KlangFront.Lexical.Literal
import KlangFront.Lexical.Number
import KlangFront.Lexical.Word
import KlangFront.Text.WhiteSpace

/-!
# Pieces of a source text

A source text is a sequence of pieces: lexemes, and the trivia between them,
which are single white space characters and comments. `Piece.read` takes one
piece off the front of a text; `Piece.Dispatch` lists which reader its first
character chooses. The main statements are `Piece.append_of_read`,
that a piece is written exactly as it was read, and `Piece.length_of_read`, that
it takes at least one character.
-/

namespace KlangFront

/-- A stretch of source text that is read in one step. -/
inductive Piece
  | trivia (text : List Char)
  | lexeme (unit : Lexeme)
  deriving DecidableEq

namespace Piece

def text : Piece → List Char
  | trivia text => text
  | lexeme unit => unit.text

/-- The longest symbol at the front of the text `c :: rest`. -/
def readSymbol (c : Char) (rest : List Char) : Reading Piece :=
  match rest.head?.bind (Symbol.ofPair? c) with
  | some sign => .ok (lexeme (.symbol sign), rest.tail)
  | none =>
    match Symbol.ofChar? c with
    | some sign => .ok (lexeme (.symbol sign), rest)
    | none =>
      if c = '&' then .error ⟨.loneAmpersand, []⟩
      else if c = '|' then .error ⟨.loneBar, []⟩
      else .error ⟨.strayCharacter c, []⟩

/-- A comment or a symbol, read from behind a slash. -/
def readSlash (rest : List Char) : Reading Piece :=
  match rest with
  | '/' :: after =>
    let (body, remaining) := Comment.line after
    .ok (trivia ('/' :: '/' :: body), remaining)
  | '*' :: after =>
    match Comment.closeFrom? [] after with
    | some (body, remaining) => .ok (trivia ('/' :: '*' :: body), remaining)
    | none => .error ⟨.openComment, '/' :: rest⟩
  | _ => readSymbol '/' rest

/-- A literal, read from behind its opening quote. -/
def readLiteral (quoted : Quoted) (rest : List Char) : Reading Piece :=
  match Literal.read quoted rest with
  | .ok (body, remaining) => .ok (lexeme (.literal quoted body), remaining)
  | .error stop => .error (stop.behind [quoted.quote])

/-- The word that starts with `c`. -/
def readWord (c : Char) (rest : List Char) : Piece × List Char :=
  (lexeme (.ofWord (c :: rest.takeWhile isWordPart)), rest.dropWhile isWordPart)

/-- A name with a sigil, read from behind the sigil. -/
def readSigil (rest : List Char) : Reading Piece :=
  if rest.head?.any isWordStart then .ok (readWord '$' rest) else .error ⟨.danglingSigil, []⟩

def readNumber (text : List Char) : Reading Piece :=
  match Number.read text with
  | .ok (digits, remaining) => .ok (lexeme (.number digits), remaining)
  | .error stop => .error stop

/-- The piece at the front of the text `c :: rest`. -/
def read (c : Char) (rest : List Char) : Reading Piece :=
  if isWhiteSpace c then .ok (trivia [c], rest)
  else if c = '/' then readSlash rest
  else if c = '"' then readLiteral .string rest
  else if c = '\'' then readLiteral .character rest
  else if c = '$' then readSigil rest
  else if isWordStart c then .ok (readWord c rest)
  else if c.isDigit then readNumber (c :: rest)
  else readSymbol c rest

/-- No reader but that of symbols applies to the character. -/
def Unclaimed (c : Char) : Prop :=
  isWhiteSpace c = false ∧ isWordStart c = false ∧ c.isDigit = false ∧
    c ∉ ['/', '"', '\'', '$']

/-- The reader that the first character chooses, and what that reader gives. -/
inductive Dispatch (c : Char) (rest : List Char) (result : Reading Piece) : Prop
  | whiteSpace (first : isWhiteSpace c = true) (same : result = .ok (trivia [c], rest))
  | slash (first : c = '/') (same : result = readSlash rest)
  | quote (quoted : Quoted) (first : c = quoted.quote) (same : result = readLiteral quoted rest)
  | sigil (first : c = '$') (same : result = readSigil rest)
  | word (first : isWordStart c = true) (same : result = .ok (readWord c rest))
  | digit (first : c.isDigit = true) (same : result = readNumber (c :: rest))
  | sign (first : Unclaimed c) (same : result = readSymbol c rest)

theorem dispatch_read (c : Char) (rest : List Char) : Dispatch c rest (read c rest) := by
  unfold read
  split
  · next first => exact .whiteSpace first rfl
  · split
    · next first => exact .slash first rfl
    · split
      · next first => exact .quote .string first rfl
      · split
        · next first => exact .quote .character first rfl
        · split
          · next first => exact .sigil first rfl
          · split
            · next first => exact .word first rfl
            · split
              · next first => exact .digit first rfl
              · exact .sign (by simp_all [Unclaimed]) rfl

theorem append_of_readSymbol {c : Char} {rest after : List Char} {piece : Piece}
    (accepted : readSymbol c rest = .ok (piece, after)) : piece.text ++ after = c :: rest := by
  unfold readSymbol at accepted
  split at accepted
  · next sign found =>
    obtain ⟨second, next, pair⟩ := Option.bind_eq_some_iff.mp found
    obtain ⟨later, rfl⟩ := List.head?_eq_some_iff.mp next
    cases accepted
    simp [text, Lexeme.text, Symbol.ofPair?_eq_some_iff.mp pair]
  · split at accepted
    · next sign single =>
      cases accepted
      simp [text, Lexeme.text, Symbol.ofChar?_eq_some_iff.mp single]
    · split at accepted
      · cases accepted
      · split at accepted <;> cases accepted

theorem append_of_readSlash {rest after : List Char} {piece : Piece}
    (accepted : readSlash rest = .ok (piece, after)) : piece.text ++ after = '/' :: rest := by
  unfold readSlash at accepted
  split at accepted
  · cases accepted
    simp [text]
  · next body =>
    rw [Comment.closeFrom?_eq] at accepted
    cases closed : Comment.close? body with
    | none => simp [closed] at accepted
    | some split =>
      simp only [closed, Option.map_some, List.reverse_nil, List.nil_append] at accepted
      cases accepted
      simp [text, Comment.append_of_close? closed]
  · exact append_of_readSymbol accepted

theorem append_of_readLiteral {quoted : Quoted} {rest after : List Char} {piece : Piece}
    (accepted : readLiteral quoted rest = .ok (piece, after)) :
    piece.text ++ after = quoted.quote :: rest := by
  unfold readLiteral at accepted
  split at accepted
  · next body remaining found =>
    cases accepted
    simp [text, Lexeme.text, Literal.append_of_read found]
  · cases accepted

theorem append_readWord (c : Char) (rest : List Char) :
    (readWord c rest).1.text ++ (readWord c rest).2 = c :: rest := by
  simp [readWord, text, Lexeme.text_ofWord]

theorem append_of_readNumber {source after : List Char} {piece : Piece}
    (accepted : readNumber source = .ok (piece, after)) : piece.text ++ after = source := by
  unfold readNumber at accepted
  split at accepted
  · next digits remaining found =>
    cases accepted
    exact Number.append_of_read found
  · cases accepted

theorem append_of_readSigil {rest after : List Char} {piece : Piece}
    (accepted : readSigil rest = .ok (piece, after)) : piece.text ++ after = '$' :: rest := by
  unfold readSigil at accepted
  split at accepted
  · cases accepted
    exact append_readWord '$' rest
  · cases accepted

theorem append_of_read {c : Char} {rest after : List Char} {piece : Piece}
    (accepted : read c rest = .ok (piece, after)) : piece.text ++ after = c :: rest := by
  cases dispatch_read c rest with
  | whiteSpace first same =>
    cases accepted.symm.trans same
    rfl
  | slash first same => exact first ▸ append_of_readSlash (same ▸ accepted)
  | quote quoted first same => exact first ▸ append_of_readLiteral (same ▸ accepted)
  | sigil first same => exact first ▸ append_of_readSigil (same ▸ accepted)
  | word first same =>
    cases accepted.symm.trans same
    exact append_readWord c rest
  | digit first same => exact append_of_readNumber (same ▸ accepted)
  | sign first same => exact append_of_readSymbol (same ▸ accepted)

theorem text_ne_nil_of_readSymbol {c : Char} {rest after : List Char} {piece : Piece}
    (accepted : readSymbol c rest = .ok (piece, after)) : piece.text ≠ [] := by
  unfold readSymbol at accepted
  split at accepted
  · next sign found =>
    cases accepted
    cases sign <;> simp [text, Lexeme.text, Symbol.spelling]
  · split at accepted
    · next sign single =>
      cases accepted
      simp [text, Lexeme.text, Symbol.ofChar?_eq_some_iff.mp single]
    · split at accepted
      · cases accepted
      · split at accepted <;> cases accepted

theorem text_ne_nil_of_readSlash {rest after : List Char} {piece : Piece}
    (accepted : readSlash rest = .ok (piece, after)) : piece.text ≠ [] := by
  unfold readSlash at accepted
  split at accepted
  · cases accepted
    simp [text]
  · split at accepted
    · cases accepted
      simp [text]
    · cases accepted
  · exact text_ne_nil_of_readSymbol accepted

theorem text_ne_nil_of_readLiteral {quoted : Quoted} {rest after : List Char} {piece : Piece}
    (accepted : readLiteral quoted rest = .ok (piece, after)) : piece.text ≠ [] := by
  unfold readLiteral at accepted
  split at accepted
  · cases accepted
    simp [text, Lexeme.text]
  · cases accepted

theorem text_readWord_ne_nil (c : Char) (rest : List Char) : (readWord c rest).1.text ≠ [] := by
  simp [readWord, text, Lexeme.text_ofWord]

theorem text_ne_nil_of_readNumber {c : Char} (digit : c.isDigit = true) {rest after : List Char}
    {piece : Piece} (accepted : readNumber (c :: rest) = .ok (piece, after)) :
    piece.text ≠ [] := by
  unfold readNumber at accepted
  split at accepted
  · next digits remaining found =>
    cases accepted
    exact Number.ne_nil_of_read digit found
  · cases accepted

theorem text_ne_nil_of_readSigil {rest after : List Char} {piece : Piece}
    (accepted : readSigil rest = .ok (piece, after)) : piece.text ≠ [] := by
  unfold readSigil at accepted
  split at accepted
  · cases accepted
    exact text_readWord_ne_nil '$' rest
  · cases accepted

theorem text_ne_nil_of_read {c : Char} {rest after : List Char} {piece : Piece}
    (accepted : read c rest = .ok (piece, after)) : piece.text ≠ [] := by
  cases dispatch_read c rest with
  | whiteSpace first same =>
    cases accepted.symm.trans same
    simp [text]
  | slash first same => exact text_ne_nil_of_readSlash (same ▸ accepted)
  | quote quoted first same => exact text_ne_nil_of_readLiteral (same ▸ accepted)
  | sigil first same => exact text_ne_nil_of_readSigil (same ▸ accepted)
  | word first same =>
    cases accepted.symm.trans same
    exact text_readWord_ne_nil c rest
  | digit first same => exact text_ne_nil_of_readNumber first (same ▸ accepted)
  | sign first same => exact text_ne_nil_of_readSymbol (same ▸ accepted)

theorem length_of_read {c : Char} {rest after : List Char} {piece : Piece}
    (accepted : read c rest = .ok (piece, after)) : after.length < (c :: rest).length := by
  have whole := congrArg List.length (append_of_read accepted)
  have taken := List.length_pos_iff.mpr (text_ne_nil_of_read accepted)
  rw [List.length_append] at whole
  omega

end Piece

end KlangFront
