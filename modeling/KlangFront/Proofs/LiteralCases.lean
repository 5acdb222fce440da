import KlangFront.Proofs.Rounds

/-!
# The cases of a literal

What a scan comes to at a quote is decided by the text behind it. A string takes the
longest run of units there is, and the next characters decide: the closing quote ends
it, and everything else is a fault (`Scan.StringCase`). A character literal has one unit;
what stands in its place and what follows it are told apart in the same way
(`Scan.CharacterCase`, `Scan.ClosingCase`).

The cases are given for any text, so `Scan.StandsAt.reads_literal` leaves nothing open:
no case of a text is missing, and no text has two cases.
-/

namespace KlangFront

namespace Scan

/-- What becomes of a string behind its longest run of units, by the text that follows. -/
def StringCase (file : Option String) (source : String) (stage : Stage) (run : List Char) :
    List Char → Prop
  | [] | ['\\'] => FailsAt file source source.toList.length (.unterminated .string)
  | '"' :: _ => GoesOn file source.toList stage (stage.past file (.lexeme (.literal .string run)))
  | '\n' :: _ => FailsAt file source (stage.offset + (run.length + 1)) (.lineBreak .string)
  | '\\' :: '\n' :: _ => FailsAt file source (stage.offset + (run.length + 2)) (.lineBreak .string)
  | '\\' :: c :: _ => FailsAt file source (stage.offset + (run.length + 2)) (.badEscape .string c)
  | _ => False

/-- What becomes of a character literal behind its unit, by the text that follows. -/
def ClosingCase (file : Option String) (source : String) (stage : Stage) (unit : List Char) :
    List Char → Prop
  | [] => FailsAt file source source.toList.length (.unterminated .character)
  | '\'' :: _ =>
    GoesOn file source.toList stage (stage.past file (.lexeme (.literal .character unit)))
  | '\n' :: _ => FailsAt file source (stage.offset + (unit.length + 1)) (.unterminated .character)
  | _ :: _ => FailsAt file source (stage.offset + (unit.length + 1)) .crowdedCharacter

/-- What becomes of a character literal behind its opening quote, by the text that follows. -/
def CharacterCase (file : Option String) (source : String) (stage : Stage) : List Char → Prop
  | [] | ['\\'] => FailsAt file source source.toList.length (.unterminated .character)
  | '\n' :: _ => FailsAt file source (stage.offset + 1) (.lineBreak .character)
  | '\'' :: _ => FailsAt file source (stage.offset + 1) .emptyCharacter
  | '\\' :: '\n' :: _ => FailsAt file source (stage.offset + 2) (.lineBreak .character)
  | '\\' :: c :: rest =>
    if c ∈ ['n', 't', '\'', '\\'] then ClosingCase file source stage ['\\', c] rest
    else FailsAt file source (stage.offset + 2) (.badEscape .character c)
  | c :: rest => ClosingCase file source stage [c] rest

variable {file : Option String} {source : String} {stage : Stage} {quoted : Quoted}
  {body slash run unit rest text : List Char}

-- ---------------------------------------------------------------------------
-- Faults of both literals
-- ---------------------------------------------------------------------------

theorem StandsAt.unterminated (h : StandsAt file source.toList stage)
    (hopened : Grammar.Opened quoted body) (hslash : Grammar.Slash slash)
    (hrest : source.toList.drop stage.offset = quoted.quote :: (body ++ slash)) :
    FailsAt file source source.toList.length (.unterminated quoted) := by
  have hbreaks : Stop.Breaks ⟨.unterminated quoted, quoted.quote :: body ++ slash⟩ [] :=
    .unterminated hopened hslash
  exact h.failsAt_end hrest hbreaks

theorem StandsAt.lineBreak (h : StandsAt file source.toList stage)
    (hopened : Grammar.Opened quoted body) (hslash : Grammar.Slash slash)
    (hrest : source.toList.drop stage.offset = quoted.quote :: (body ++ (slash ++ '\n' :: rest))) :
    FailsAt file source (stage.offset + (body.length + slash.length + 1))
      (.lineBreak quoted) := by
  have hbreaks : Stop.Breaks ⟨.lineBreak quoted, quoted.quote :: body ++ slash⟩ ('\n' :: rest) :=
    .lineBreak hopened hslash
  have hsplit : source.toList.drop stage.offset
      = quoted.quote :: body ++ slash ++ '\n' :: rest := by simpa using hrest
  simpa using h.failsAt hsplit hbreaks

theorem StandsAt.badEscape {c : Char} (h : StandsAt file source.toList stage)
    (hopened : Grammar.Opened quoted body)
    (hrest : source.toList.drop stage.offset = quoted.quote :: (body ++ '\\' :: c :: rest))
    (hfeed : c ≠ '\n') (hillegal : c ∉ ['n', 't', quoted.quote, '\\']) :
    FailsAt file source (stage.offset + (body.length + 2)) (.badEscape quoted c) := by
  have hbreaks : Stop.Breaks ⟨.badEscape quoted c, quoted.quote :: body ++ ['\\']⟩ (c :: rest) :=
    .badEscape hopened hfeed hillegal
  have hsplit : source.toList.drop stage.offset
      = quoted.quote :: body ++ ['\\'] ++ c :: rest := by simpa using hrest
  simpa using h.failsAt hsplit hbreaks

theorem StandsAt.closedLiteral (h : StandsAt file source.toList stage)
    (hbody : Grammar.LiteralBody quoted body)
    (hrest : source.toList.drop stage.offset = quoted.quote :: (body ++ quoted.quote :: rest)) :
    GoesOn file source.toList stage (stage.past file (.lexeme (.literal quoted body))) := by
  have hsplit : source.toList.drop stage.offset
      = (Piece.lexeme (.literal quoted body)).text ++ rest := by
    simpa [Piece.text, Lexeme.text] using hrest
  exact h.goesOn hsplit hbody fun c _ => trivial

-- ---------------------------------------------------------------------------
-- Strings
-- ---------------------------------------------------------------------------

theorem StandsAt.stringCase (h : StandsAt file source.toList stage)
    (hrest : source.toList.drop stage.offset = '"' :: (run ++ rest))
    (hrun : Grammar.LiteralUnits .string run) (hblocked : Literal.unit? .string rest = none) :
    StringCase file source stage run rest := by
  have hopened : Grammar.Opened .string run := hrun
  have hbare : Grammar.Slash [] := .inl rfl
  have hslash : Grammar.Slash ['\\'] := .inr rfl
  unfold StringCase
  split
  · exact h.unterminated hopened hbare hrest
  · exact h.unterminated hopened hslash hrest
  · exact h.closedLiteral hrun hrest
  · exact h.lineBreak hopened hbare hrest
  · exact h.lineBreak hopened hslash hrest
  · next c later hfeed =>
    have hunit : ¬ Grammar.LiteralUnit .string ['\\', c] :=
      Literal.not_literalUnit_of_unit? hblocked
    exact h.badEscape hopened hrest hfeed fun hlegal => hunit (.escape hlegal)
  · next hend hslashed hquote hfeed _ hescape =>
    -- any other character is itself a unit, with which the run would go on
    cases rest with
    | nil => exact hend rfl
    | cons c later =>
      have hunit : ¬ Grammar.LiteralUnit .string [c] := Literal.not_literalUnit_of_unit? hblocked
      refine hunit (.plain ?_ ?_ ?_)
      · rintro rfl
        exact hquote later rfl
      · rintro rfl
        cases later with
        | nil => exact hslashed rfl
        | cons d later => exact hescape d later rfl
      · rintro rfl
        exact hfeed later rfl

theorem StandsAt.reads_string (h : StandsAt file source.toList stage)
    (hrest : source.toList.drop stage.offset = '"' :: text) :
    ∃ run rest, text = run ++ rest ∧
      Grammar.Longest (Grammar.LiteralUnits .string) run text ∧
        StringCase file source stage run rest := by
  obtain ⟨run, rest, rfl, hrun, hblocked⟩ := Literal.exists_units .string text
  have hlongest : Grammar.Longest (Grammar.LiteralUnits .string) run (run ++ rest) :=
    ⟨hrun, List.prefix_append run rest,
      fun hother hfront => (Literal.isPrefix_of_units hrun hblocked hother hfront).length_le⟩
  exact ⟨run, rest, rfl, hlongest, h.stringCase hrest hrun hblocked⟩

-- ---------------------------------------------------------------------------
-- Character literals
-- ---------------------------------------------------------------------------

theorem StandsAt.closingCase (h : StandsAt file source.toList stage)
    (hunit : Grammar.LiteralUnit .character unit)
    (hrest : source.toList.drop stage.offset = '\'' :: (unit ++ rest)) :
    ClosingCase file source stage unit rest := by
  have hunclosed {rest : List Char} (hend : ∀ c ∈ rest.head?, c = '\n') :
      Stop.Breaks ⟨.unterminated .character, '\'' :: unit⟩ rest := .unclosedCharacter hunit hend
  unfold ClosingCase
  split
  · exact h.failsAt_end (by simpa using hrest) (hunclosed (by simp))
  · exact h.closedLiteral hunit hrest
  · exact h.failsAt hrest (hunclosed (by simp))
  · next c later hquote hfeed =>
    have hbreaks : Stop.Breaks ⟨.crowdedCharacter, '\'' :: unit⟩ (c :: later) :=
      .crowdedCharacter hunit hquote hfeed
    exact h.failsAt hrest hbreaks

theorem StandsAt.reads_character (h : StandsAt file source.toList stage)
    (hrest : source.toList.drop stage.offset = '\'' :: text) :
    CharacterCase file source stage text := by
  have hopened : Grammar.Opened .character [] := rfl
  have hbare : Grammar.Slash [] := .inl rfl
  have hslash : Grammar.Slash ['\\'] := .inr rfl
  unfold CharacterCase
  split
  · exact h.unterminated hopened hbare hrest
  · exact h.unterminated hopened hslash hrest
  · exact h.lineBreak hopened hbare hrest
  · next later =>
    have hbreaks : Stop.Breaks ⟨.emptyCharacter, ['\'']⟩ ('\'' :: later) := .emptyCharacter
    exact h.failsAt hrest hbreaks
  · exact h.lineBreak hopened hslash hrest
  · next c later hfeed =>
    split
    · next hlegal => exact h.closingCase (.escape hlegal) hrest
    · next hillegal => exact h.badEscape hopened hrest hfeed hillegal
  · next c later hslashed hfeed hquote _ hescape =>
    refine h.closingCase (.plain hquote ?_ hfeed) hrest
    rintro rfl
    cases later with
    | nil => exact hslashed rfl rfl
    | cons d later => exact hescape d later rfl rfl

theorem StandsAt.reads_literal (h : StandsAt file source.toList stage) :
    (∀ text, source.toList.drop stage.offset = '"' :: text → ∃ run rest, text = run ++ rest ∧
      Grammar.Longest (Grammar.LiteralUnits .string) run text ∧
        StringCase file source stage run rest) ∧
    ∀ text, source.toList.drop stage.offset = '\'' :: text →
      CharacterCase file source stage text :=
  ⟨fun _ hrest => h.reads_string hrest, fun _ hrest => h.reads_character hrest⟩

/-- A string of escaped characters with no quote left to close it, and a character literal
behind a name that ends with its second backslash. -/
theorem reads_literal_backslashes :
    let stage : Stage := ⟨1, ⟨0, 1⟩, [.ofLexeme none ⟨0, 0⟩ (.identifier ['x'])]⟩
    StandsAt none "\"\\\\\\\"".toList ⟨0, .start, []⟩ ∧
      FailsAt none "\"\\\\\\\"" 5 (.unterminated .string) ∧
      StandsAt none "x'\\\\'y".toList stage ∧ GoesOn none "x'\\\\'y".toList stage
        (stage.past none (.lexeme (.literal .character ['\\', '\\']))) := by
  intro stage
  have hstart : StandsAt none "\"\\\\\\\"".toList ⟨0, .start, []⟩ := standsAt_start none _
  have hescapes : Grammar.LiteralUnits .string ['\\', '\\', '\\', '"'] :=
    .cons (.escape (by decide)) (.cons (.escape (by decide)) .nil)
  obtain ⟨run, rest, htext, hrun, hcase⟩ :=
    hstart.reads_literal.1 ['\\', '\\', '\\', '"'] (by decide +kernel)
  have hfour : 4 ≤ run.length := hrun.longest hescapes (List.prefix_refl _)
  obtain rfl : rest = [] := by
    have hlength : 4 = (run ++ rest).length := congrArg List.length htext
    rw [List.length_append] at hlength
    exact List.length_eq_zero_iff.mp (by omega)
  have hname : Reaches "x'\\\\'y".toList [.lexeme (.identifier ['x'])]
      ['\'', '\\', '\\', '\'', 'y'] :=
    Reaches.round (c := 'x') .start (by decide +kernel)
  have h : StandsAt none "x'\\\\'y".toList stage := ⟨_, _, hname, by decide +kernel, rfl⟩
  exact ⟨hstart, hcase, h, h.reads_literal.2 ['\\', '\\', '\'', 'y'] (by decide +kernel)⟩

end Scan

end KlangFront
