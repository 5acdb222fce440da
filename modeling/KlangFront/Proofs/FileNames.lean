import KlangFront.Proofs.Moves

/-!
# The name of the file

A scan hands its file on to every span and never looks at it. Putting the tokens read so far
into another file changes nothing but their spans, and each round keeps it that way
(`Placement.withFile_add`). So the outcome for one file is the outcome for any other
one with the files of the spans exchanged: `tokenize_withFile`. What the scans of two
files have in common, and where their spans lie, is `tokenize_anyFile`.
-/

namespace KlangFront

/-- The same lines and the same columns. -/
structure Span.SameRange (span other : Span) : Prop where
  startLine : other.startLine = span.startLine
  startColumn : other.startColumn = span.startColumn
  endLine : other.endLine = span.endLine
  endColumn : other.endColumn = span.endColumn

/-- The token as it stands in another file. -/
def Token.withFile (token : Token) (file : Option String) : Token :=
  { token with span := token.span.withFile file }

/-- The error as it stands in another file. -/
def LexicalError.withFile (error : LexicalError) (file : Option String) : LexicalError :=
  { error with span := error.span.withFile file }

def Placement.withFile (placement : Placement) (file : Option String) : Placement :=
  { placement with tokens := placement.tokens.map (·.withFile file) }

/-- The outcome of a scan with all of its spans in another file. -/
def outcomeWithFile (outcome : Except LexicalError (List Token)) (file : Option String) :
    Except LexicalError (List Token) :=
  match outcome with
  | .ok tokens => .ok (tokens.map (·.withFile file))
  | .error error => .error (error.withFile file)

/-- The spans in the outcome of a scan: those of the tokens, or that of the error. -/
def outcomeSpans : Except LexicalError (List Token) → List Span
  | .ok tokens => tokens.map Token.span
  | .error error => [error.span]

-- ---------------------------------------------------------------------------
-- One round
-- ---------------------------------------------------------------------------

variable {file other : Option String}

theorem Token.withFile_ofLexeme (start : Position) (unit : Lexeme) :
    (ofLexeme file start unit).withFile other = ofLexeme other start unit := rfl

theorem Token.withFile_endOfInput (position : Position) :
    (endOfInput file position).withFile other = endOfInput other position := rfl

theorem Placement.withFile_add (placement : Placement) (piece : Piece) :
    (placement.add file piece).withFile other = (placement.withFile other).add other piece := by
  cases piece with
  | trivia text => rfl
  | lexeme unit => simp [add, withFile, Token.withFile_ofLexeme]

-- ---------------------------------------------------------------------------
-- The whole scan
-- ---------------------------------------------------------------------------

theorem Placement.withFile_foldl (pieces : List Piece) (placement : Placement) :
    (pieces.foldl (add file) placement).withFile other
      = pieces.foldl (add other) (placement.withFile other) := by
  induction pieces generalizing placement with
  | nil => rfl
  | cons piece pieces ih => rw [List.foldl_cons, List.foldl_cons, ih, withFile_add]

theorem Placement.withFile_ofPieces (pieces : List Piece) :
    (ofPieces file pieces).withFile other = ofPieces other pieces :=
  withFile_foldl pieces start

theorem tokenize_withFile (file other : Option String) (source : String) :
    outcomeWithFile (tokenize file source) other = tokenize other source := by
  have hplacement : (Placement.ofPieces file (Scan.of source.toList).pieces).withFile other
      = Placement.ofPieces other (Scan.of source.toList).pieces :=
    Placement.withFile_ofPieces _
  simp only [tokenize, ← hplacement]
  cases (Scan.of source.toList).stop with
  | some stop => rfl
  | none => simp [outcomeWithFile, Placement.withFile, Token.withFile_endOfInput]

theorem file_of_mem_outcomeSpans {outcome : Except LexicalError (List Token)} {span : Span}
    (h : span ∈ outcomeSpans (outcomeWithFile outcome file)) : span.file = file := by
  cases outcome with
  | error error =>
    obtain rfl := List.mem_singleton.mp h
    rfl
  | ok tokens =>
    obtain ⟨token, htoken, rfl⟩ := List.mem_map.mp h
    obtain ⟨original, -, rfl⟩ := List.mem_map.mp htoken
    rfl

theorem readBehind_withFile (outcome : Except LexicalError (List Token)) :
    ReadBehind [] Span.SameRange outcome (outcomeWithFile outcome file) := by
  cases outcome with
  | error error => exact .error ⟨rfl, rfl, rfl, rfl, rfl⟩
  | ok tokens =>
    have hmoved : List.Forall₂ (Token.Moved Span.SameRange) tokens
        (tokens.map (·.withFile file)) :=
      List.forall₂_map_right_iff.mpr
        (List.forall₂_same.mpr fun token _ => ⟨rfl, rfl, rfl, rfl, rfl, rfl⟩)
    exact .tokens hmoved

theorem tokenize_anyFile (source : String) :
    (∀ file other : Option String,
      ReadBehind [] Span.SameRange (tokenize file source) (tokenize other source)) ∧
    (∀ file : Option String, ∀ span ∈ outcomeSpans (tokenize file source), span.file = file) ∧
    tokenize (fileNamed "") source = tokenize none source ∧
    ∀ name : String, name ≠ "" → tokenize (fileNamed name) source = tokenize (some name) source := by
  refine ⟨fun file other => ?_, fun file span hspan => ?_, rfl, fun name hname => ?_⟩
  · rw [← tokenize_withFile file other]
    exact readBehind_withFile _
  · rw [← tokenize_withFile none file] at hspan
    exact file_of_mem_outcomeSpans hspan
  · rw [fileNamed, if_neg hname]

/-- A scan that fails, without a file, in a file with an empty name and in one with a name. -/
theorem tokenize_anyFile_emptyName :
    let source := "x\n''"
    let error (file : Option String) : LexicalError :=
      ⟨.emptyCharacter, .point file (.clamp 2) (.clamp 2)⟩
    tokenize none source = .error (error none) ∧
      ReadBehind [] Span.SameRange (.error (error none)) (tokenize (some "") source) ∧
      (∀ span ∈ outcomeSpans (tokenize (some "") source), span.file = some "") ∧
      "x.k" ≠ "" ∧ tokenize (fileNamed "x.k") source = tokenize (some "x.k") source := by
  intro source error
  obtain ⟨hagree, hfile, -, hnamed⟩ := tokenize_anyFile source
  have h : tokenize none source = .error (error none) := by decide +kernel
  have hname : "x.k" ≠ "" := by decide
  exact ⟨h, h ▸ hagree none (some ""), hfile (some ""), hname, hnamed "x.k" hname⟩

end KlangFront
