import KlangFront.Proofs.Rounds

/-!
# Comments are skipped exactly

A scan that stands at a comment goes on right behind it, without a token. A line
comment is over at the first line feed or at the end of the text. A block comment is
over behind the first `*/` that stands behind its two opening characters, whatever
comes before that, and where there is none the scan fails at the end of the source.
The place behind a comment counts all of its characters (`Scan.Skips`).
-/

namespace KlangFront

open Text (lastLine)

/-- A pattern stands at an index of a text, and at no smaller one. -/
structure Text.FirstAt (pattern text : List Char) (index : Nat) : Prop where
  here : pattern <+: text.drop index
  first : ∀ earlier < index, ¬ pattern <+: text.drop earlier

namespace Scan

/-- The loop goes on behind a text that leaves no token, with every character of it counted. -/
structure Skips (file : Option String) (source : List Char) (stage : Stage) (text : List Char)
    (next : Stage) : Prop extends GoesOn file source stage next where
  offset : next.offset = stage.offset + text.length
  tokens : next.tokens = stage.tokens
  lineFeeds : next.position.lineFeeds = stage.position.lineFeeds + text.count '\n'
  indent : next.position.indent =
    if '\n' ∈ text then (lastLine text).length else stage.position.indent + text.length
  line : next.position.line.toNat
    = Coord.saturate (1 + (source.take next.offset).count '\n')
  column : next.position.column.toNat
    = Coord.saturate (1 + (lastLine (source.take next.offset)).length)

end Scan

-- ---------------------------------------------------------------------------
-- Places
-- ---------------------------------------------------------------------------

theorem Position.indent_after (position : Position) (text : List Char) :
    (position.after text).indent
      = if '\n' ∈ text then (lastLine text).length else position.indent + text.length := by
  induction text using List.reverseRecOn with
  | nil => simp
  | append_singleton text c ih =>
    rw [after_append, after_cons, after_nil, step, Text.lastLine_concat]
    by_cases hfeed : c = '\n'
    · simp [hfeed]
    · rw [if_neg hfeed, if_neg hfeed, ih]
      by_cases hmem : '\n' ∈ text
      · simp [hmem]
      · simp [hmem, Ne.symm hfeed, Nat.add_assoc]

namespace Scan

variable {file : Option String} {source text rest after : List Char} {stage : Stage}

/-- The position at a stage counts the whole text in front of it. -/
theorem StandsAt.position_eq (h : StandsAt file source stage) :
    stage.position = Position.start.after (source.take stage.offset) := by
  obtain ⟨pieces, htiles, hlength, hplacement⟩ := standsAt_iff.mp h
  have hfront : source.take stage.offset = pieces.flatMap Piece.text := by
    rw [hlength, ← htiles.flatMap_append, List.take_left]
  rw [Placement.ofPieces_eq] at hplacement
  rw [hfront]
  exact (congrArg Placement.position hplacement).symm

theorem StandsAt.toNat_line (h : StandsAt file source stage) : stage.position.line.toNat
    = Coord.saturate (1 + (source.take stage.offset).count '\n') := by
  rw [h.position_eq, Position.after_start]
  exact Coord.toNat_clamp_succ _

theorem StandsAt.toNat_column (h : StandsAt file source stage) : stage.position.column.toNat
    = Coord.saturate (1 + (lastLine (source.take stage.offset)).length) := by
  rw [h.position_eq, Position.after_start]
  exact Coord.toNat_clamp_succ _

theorem StandsAt.skips (h : StandsAt file source stage)
    (hrest : source.drop stage.offset = text ++ after) (hvalid : Grammar.Trivia text)
    (hend : (Piece.trivia text).EndsBefore after) :
    Skips file source stage text (stage.past file (.trivia text)) where
  toGoesOn := h.goesOn hrest hvalid hend
  offset := rfl
  tokens := List.append_nil _
  lineFeeds := Position.lineFeeds_after _ _
  indent := Position.indent_after _ _
  line := StandsAt.toNat_line (h.past hrest hvalid hend)
  column := StandsAt.toNat_column (h.past hrest hvalid hend)

end Scan

-- ---------------------------------------------------------------------------
-- The first end of a block
-- ---------------------------------------------------------------------------

theorem Text.FirstAt.unique {pattern text : List Char} {index other : Nat}
    (h : FirstAt pattern text index) (h' : FirstAt pattern text other) : index = other := by
  rcases Nat.lt_trichotomy index other with hlt | rfl | hgt
  · exact absurd h.here (h'.first index hlt)
  · rfl
  · exact absurd h'.here (h.first other hgt)

/-- The end of a block body is the first `*/` of the body and of any text that goes on from it. -/
theorem Grammar.BlockBody.firstAt {body : List Char} (h : BlockBody body) (after : List Char) :
    ∃ index, body.length = index + 2 ∧ Text.FirstAt ['*', '/'] (body ++ after) index := by
  obtain ⟨inner, rfl, hinner⟩ := h
  refine ⟨inner.length, by simp, ?_, ?_⟩
  · rw [List.append_assoc, List.drop_left]
    exact List.prefix_append _ _
  · intro earlier hearlier hclose
    rw [List.append_assoc, List.drop_append_of_le_length (Nat.le_of_lt hearlier)] at hclose
    -- the star would be one of the inner characters, and the slash is then one too
    have hfront : ['*', '/'] <+: inner.drop earlier := by
      cases hdrop : inner.drop earlier with
      | nil =>
        rw [List.drop_eq_nil_iff] at hdrop
        omega
      | cons c later =>
        rw [hdrop] at hclose
        cases later with
        | nil => simp [List.cons_prefix_cons] at hclose
        | cons d later => simpa [List.cons_prefix_cons] using hclose
    exact hinner (hfront.isInfix.trans (List.drop_suffix _ _).isInfix)

-- ---------------------------------------------------------------------------
-- Rounds at a comment
-- ---------------------------------------------------------------------------

namespace Scan

variable {file : Option String} {source : String} {stage : Stage}

theorem StandsAt.lineComment {rest : List Char} (h : StandsAt file source.toList stage)
    (hrest : source.toList.drop stage.offset = '/' :: '/' :: rest) : ∃ body after next,
      rest = body ++ after ∧ '\n' ∉ body ∧ (∀ c ∈ after.head?, c = '\n') ∧
        Skips file source.toList stage ('/' :: '/' :: body) next := by
  obtain ⟨hsplit, hbody, hend⟩ := Comment.line_eq_iff.mp (Prod.eta (Comment.line rest)).symm
  have hwhole : source.toList.drop stage.offset
      = '/' :: '/' :: (Comment.line rest).1 ++ (Comment.line rest).2 := by
    rw [hrest, List.cons_append, List.cons_append, ← hsplit]
  exact ⟨_, _, _, hsplit, hbody, hend,
    h.skips hwhole (.lineComment hbody) fun c hc _ => hend c hc⟩

theorem StandsAt.blockComment {rest : List Char} (h : StandsAt file source.toList stage)
    (hrest : source.toList.drop stage.offset = '/' :: '*' :: rest)
    (hclosed : ['*', '/'] <:+: rest) : ∃ index next, Text.FirstAt ['*', '/'] rest index ∧
      Skips file source.toList stage ('/' :: '*' :: rest.take (index + 2)) next := by
  cases hclose : Comment.close? rest with
  | none => exact absurd hclosed (Comment.close?_eq_none_iff.mp hclose)
  | some split =>
    obtain ⟨body, after⟩ := split
    obtain ⟨rfl, hbody⟩ := Comment.close?_eq_some_iff.mp hclose
    obtain ⟨index, hlength, hfirst⟩ := hbody.firstAt after
    refine ⟨index, stage.past file (.trivia ('/' :: '*' :: body)), hfirst, ?_⟩
    rw [← hlength, List.take_left]
    exact h.skips hrest (.blockComment hbody)
      (Piece.endsBefore_trivia (Piece.not_lineComment_block body) after)

theorem StandsAt.openComment {rest : List Char} (h : StandsAt file source.toList stage)
    (hrest : source.toList.drop stage.offset = '/' :: '*' :: rest)
    (hopen : ¬ ['*', '/'] <:+: rest) :
    FailsAt file source source.toList.length .openComment :=
  h.failsAt_end hrest (.openComment hopen)

theorem StandsAt.skips_comments (h : StandsAt file source.toList stage) :
    (∀ rest, source.toList.drop stage.offset = '/' :: '/' :: rest → ∃ body after next,
      rest = body ++ after ∧ '\n' ∉ body ∧ (∀ c ∈ after.head?, c = '\n') ∧
        Skips file source.toList stage ('/' :: '/' :: body) next) ∧
    ∀ rest, source.toList.drop stage.offset = '/' :: '*' :: rest →
      (['*', '/'] <:+: rest → ∃ index next, Text.FirstAt ['*', '/'] rest index ∧
        Skips file source.toList stage ('/' :: '*' :: rest.take (index + 2)) next) ∧
      (¬ ['*', '/'] <:+: rest → FailsAt file source source.toList.length .openComment) :=
  ⟨fun _ hrest => h.lineComment hrest,
    fun _ hrest => ⟨h.blockComment hrest, h.openComment hrest⟩⟩

/-- A block behind a name, with a slash right behind its opening and three stars before its
end, and a source that is over behind such a slash. -/
theorem skips_comments_overlapping :
    let source := "x/*/\n***/y"
    let stage : Stage := ⟨1, ⟨0, 1⟩, [.ofLexeme none ⟨0, 0⟩ (.identifier ['x'])]⟩
    StandsAt none source.toList stage ∧
      (∃ next, Skips none source.toList stage ['/', '*', '/', '\n', '*', '*', '*', '/'] next) ∧
      StandsAt none "/*/".toList ⟨0, .start, []⟩ ∧ FailsAt none "/*/" 3 .openComment := by
  intro source stage
  have hsource : source.toList = ['x', '/', '*', '/', '\n', '*', '*', '*', '/', 'y'] := by
    decide +kernel
  have hstart : Reaches source.toList [] ('x' :: ['/', '*', '/', '\n', '*', '*', '*', '/', 'y']) :=
    hsource ▸ .start
  have hname : Reaches source.toList [.lexeme (.identifier ['x'])]
      ['/', '*', '/', '\n', '*', '*', '*', '/', 'y'] := hstart.round (by decide +kernel)
  have h : StandsAt none source.toList stage := ⟨_, _, hname, by decide +kernel, rfl⟩
  have hclosed : ['*', '/'] <:+: ['/', '\n', '*', '*', '*', '/', 'y'] := by decide
  have hfour : Text.FirstAt ['*', '/'] ['/', '\n', '*', '*', '*', '/', 'y'] 4 :=
    ⟨by decide, by decide⟩
  obtain ⟨index, next, hfirst, hnext⟩ :=
    (h.skips_comments.2 ['/', '\n', '*', '*', '*', '/', 'y'] (by rw [hsource]; rfl)).1 hclosed
  obtain rfl := hfirst.unique hfour
  have hopen : StandsAt none "/*/".toList ⟨0, .start, []⟩ := standsAt_start none _
  refine ⟨h, ⟨next, hnext⟩, hopen, ?_⟩
  exact (hopen.skips_comments.2 ['/'] (by decide +kernel)).2 (by decide)

end Scan

end KlangFront
