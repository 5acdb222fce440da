import KlangFront.Proofs.Cursors
import KlangFront.Proofs.Lossless
import KlangFront.Proofs.Rounds

/-!
# Progress of a scan

No round of a scan leaves the text as it was. The readers have loops of their own inside
of a round, which are the members of `InnerLoop`: `InnerLoop.append_of_round?` says that a
round of one takes at least one character, and `InnerLoop.progress` that it stops for this
reason, at the place where its reader leaves it.

The same holds for the loop of the scan (`Scan.StandsAt.round`). A round that goes on adds
at most one token, which is never the one for the end of the input, so the number of rounds
bounds the tokens and the length of the source bounds both (`Scan.StandsAfter.counts`). The
loop cannot but come to the end of the source or to a fault: `Scan.StandsAfter.ends`.
-/

namespace KlangFront

/-- The loops inside of a round of the scan. -/
inductive InnerLoop
  /-- Over the text of a block comment. -/
  | comment
  /-- Over the units of a string. -/
  | string
  /-- Over characters that have a property. -/
  | run (property : Char → Bool)

namespace InnerLoop

/-- What a round leaves of a text, or nothing where the loop stops. -/
def round? : InnerLoop → List Char → Option (List Char)
  | _, [] => none
  | comment, c :: rest => if c = '*' ∧ rest.head? = some '/' then none else some rest
  | string, c :: rest => (Literal.unit? .string (c :: rest)).map Prod.snd
  | run property, c :: rest => if property c then some rest else none

/-- A number of rounds leads from one text to another. -/
inductive Rounds (loop : InnerLoop) : Nat → List Char → List Char → Prop
  | refl {text : List Char} : Rounds loop 0 text text
  | round {rounds : Nat} {text middle rest : List Char} : loop.round? text = some middle →
      Rounds loop rounds middle rest → Rounds loop (rounds + 1) text rest

/-- The text at which a reader leaves its loop. -/
def left : InnerLoop → List Char → List Char
  | comment, text =>
    match Comment.closeFrom? [] text with
    | some (_, after) => '*' :: '/' :: after
    | none => []
  | string, text => (Literal.units .string text).2
  | run property, text => text.dropWhile property

/-- Every round takes something, until the loop stops where its reader leaves it. -/
structure Progress (loop : InnerLoop) (text : List Char) : Prop where
  takes : ∀ {rest : List Char}, loop.round? text = some rest →
    ∃ taken, taken ≠ [] ∧ text = taken ++ rest
  stops : ∃ rounds, loop.Rounds rounds text (loop.left text) ∧
    loop.round? (loop.left text) = none ∧ rounds + (loop.left text).length ≤ text.length

variable {loop : InnerLoop} {text rest : List Char} {rounds : Nat}

theorem append_of_round? (h : loop.round? text = some rest) :
    ∃ taken, taken ≠ [] ∧ text = taken ++ rest := by
  cases text with
  | nil => cases loop <;> cases h
  | cons c later =>
    cases loop with
    | comment =>
      rw [round?] at h
      split at h
      · cases h
      · cases h
        exact ⟨[c], List.cons_ne_nil _ _, rfl⟩
    | string =>
      obtain ⟨⟨unit, after⟩, hunit, rfl⟩ := Option.map_eq_some_iff.mp h
      have hsplit := Literal.append_of_unit? hunit
      have hshorter := Literal.length_of_unit? hunit
      refine ⟨unit, ?_, hsplit.symm⟩
      rintro rfl
      rw [← hsplit, List.nil_append] at hshorter
      exact Nat.lt_irrefl _ hshorter
    | run property =>
      rw [round?] at h
      split at h
      · cases h
        exact ⟨[c], List.cons_ne_nil _ _, rfl⟩
      · cases h

theorem length_of_round? (h : loop.round? text = some rest) : rest.length < text.length := by
  obtain ⟨taken, hsome, rfl⟩ := append_of_round? h
  have := List.length_pos_iff.mpr hsome
  rw [List.length_append]
  omega

/-- As every round shortens the text, the loop stops. -/
theorem exists_rounds (loop : InnerLoop) (text : List Char) : ∃ rounds rest,
    loop.Rounds rounds text rest ∧ loop.round? rest = none ∧ rounds + rest.length ≤ text.length := by
  cases hround : loop.round? text with
  | none => exact ⟨0, text, .refl, hround, by omega⟩
  | some middle =>
    have hshorter := length_of_round? hround
    obtain ⟨rounds, rest, hrounds, hstop, hlength⟩ := exists_rounds loop middle
    exact ⟨rounds + 1, rest, .round hround hrounds, hstop, by omega⟩
termination_by text.length

-- ---------------------------------------------------------------------------
-- Where the readers leave their loops
-- ---------------------------------------------------------------------------

theorem left_of_stop (h : loop.round? text = none) : loop.left text = text := by
  cases loop with
  | comment =>
    cases text with
    | nil => rfl
    | cons c later =>
      obtain ⟨rfl, hslash⟩ : c = '*' ∧ later.head? = some '/' := by simpa [round?] using h
      obtain ⟨after, rfl⟩ := List.head?_eq_some_iff.mp hslash
      rfl
  | string =>
    have hblocked : Literal.unit? .string text = none := by
      cases text with
      | nil => rfl
      | cons c later => simpa [round?] using h
    rw [left, Literal.units, Literal.unitsFrom_of_none hblocked]
  | run property =>
    cases text with
    | nil => rfl
    | cons c later =>
      have hc : property c = false := by simpa [round?] using h
      simp [left, hc]

theorem left_of_round? (h : loop.round? text = some rest) : loop.left text = loop.left rest := by
  cases text with
  | nil => cases loop <;> cases h
  | cons c later =>
    cases loop with
    | comment =>
      rw [round?] at h
      split at h
      · cases h
      · next hopen =>
        cases h
        simp only [left, Comment.closeFrom?_eq, Comment.close?, if_neg hopen]
        cases Comment.close? rest <;> rfl
    | string =>
      obtain ⟨⟨unit, after⟩, hunit, rfl⟩ := Option.map_eq_some_iff.mp h
      obtain ⟨hsplit, hvalid⟩ := Literal.unit?_eq_some_iff.mp hunit
      obtain ⟨hafter, hrun, hblocked⟩ :=
        Literal.units_eq_iff.mp (Prod.eta (Literal.units .string after)).symm
      have hunits : Literal.units .string (c :: later)
          = (unit ++ (Literal.units .string after).1, (Literal.units .string after).2) := by
        refine Literal.units_eq_iff.mpr ⟨?_, .cons hvalid hrun, hblocked⟩
        rw [hsplit, List.append_assoc, ← hafter]
      rw [left, hunits]
      rfl
    | run property =>
      rw [round?] at h
      split at h
      · next hc =>
        cases h
        simp [left, hc]
      · cases h

theorem Rounds.left_eq (h : loop.Rounds rounds text rest) : loop.left text = loop.left rest := by
  induction h with
  | refl => rfl
  | round hround _ ih => rw [left_of_round? hround, ih]

theorem progress (loop : InnerLoop) (text : List Char) : loop.Progress text where
  takes := append_of_round?
  stops := by
    obtain ⟨rounds, rest, hrounds, hstop, hlength⟩ := exists_rounds loop text
    obtain rfl : loop.left text = rest := hrounds.left_eq.trans (left_of_stop hstop)
    exact ⟨rounds, hrounds, hstop, hlength⟩

end InnerLoop

-- ---------------------------------------------------------------------------
-- Rounds of the scan
-- ---------------------------------------------------------------------------

namespace Scan

/-- A round goes from one stage to a later one within the source. -/
structure Advances (file : Option String) (source : String) (stage next : Stage) : Prop
    extends GoesOn file source.toList stage next where
  within : next.offset ≤ source.toList.length
  tokens : next.tokens = stage.tokens ∨
    ∃ token : Token, token.kind ≠ .endOfInput ∧ next.tokens = stage.tokens ++ [token]

/-- The scan of a source fails in the round at a stage, which is the last one. -/
structure GivesUp (file : Option String) (source : String) (stage : Stage) : Prop where
  fails : ∃ offset fault, FailsAt file source offset fault ∧
    stage.offset ≤ offset ∧ offset ≤ source.toList.length
  last : ∀ {other : Stage}, StandsAt file source.toList other → other.offset ≤ stage.offset

/-- The loop comes to a test at this stage behind a number of rounds. -/
inductive StandsAfter (file : Option String) (source : String) : Nat → Stage → Prop
  | start : StandsAfter file source 0 ⟨0, .start, []⟩
  | round {rounds : Nat} {stage next : Stage} : StandsAfter file source rounds stage →
      Advances file source stage next → StandsAfter file source (rounds + 1) next

/-- The loop is over after a number of rounds, with the one in which the scan fails. -/
inductive EndsAfter (file : Option String) (source : String) : Nat → Prop
  | read {rounds : Nat} {stage : Stage} : StandsAfter file source rounds stage →
      stage.offset = source.toList.length →
      tokenize file source = .ok (stage.tokens ++ [.endOfInput file stage.position]) →
      EndsAfter file source rounds
  | fault {rounds : Nat} {stage : Stage} : StandsAfter file source rounds stage →
      stage.offset < source.toList.length → GivesUp file source stage →
      EndsAfter file source (rounds + 1)

/-- Every round of a scan gets ahead or ends it, so that it ends. -/
structure Progress (file : Option String) (source : String) : Prop where
  round : ∀ {stage : Stage}, StandsAt file source.toList stage →
    stage.offset < source.toList.length →
      (∃ next, Advances file source stage next) ∨ GivesUp file source stage
  /-- Rounds lead to every stage, and no more of them than there are characters before it. -/
  rounds : ∀ {stage : Stage}, StandsAt file source.toList stage →
    ∃ rounds, StandsAfter file source rounds stage ∧ rounds ≤ stage.offset
  ends : ∃ rounds, EndsAfter file source rounds ∧ rounds ≤ source.toList.length
  tokens : ∀ {tokens : List Token}, tokenize file source = .ok tokens →
    tokens.length ≤ source.toList.length + 1 ∧ ∃ body last, tokens = body ++ [last] ∧
      last.kind = .endOfInput ∧ ∀ token ∈ body, token.kind ≠ .endOfInput

variable {file : Option String} {source : String} {stage : Stage} {rounds : Nat}
  {piece : Piece} {after : List Char}

theorem StandsAt.offset_le (h : StandsAt file source.toList stage) :
    stage.offset ≤ source.toList.length := by
  obtain ⟨passed, rest, -, hoffset, -⟩ := h
  omega

/-- At most one token comes from a piece. -/
theorem Stage.tokens_past (file : Option String) (stage : Stage) (piece : Piece) :
    (stage.past file piece).tokens = stage.tokens ∨ ∃ token : Token, token.kind ≠ .endOfInput ∧
      (stage.past file piece).tokens = stage.tokens ++ [token] := by
  cases piece with
  | trivia text => exact .inl (by simp [past, Piece.lexeme?])
  | lexeme unit => exact .inr ⟨.ofLexeme file stage.position unit, unit.entry_spec.1, rfl⟩

theorem StandsAt.advances (h : StandsAt file source.toList stage)
    (hrest : source.toList.drop stage.offset = piece.text ++ after) (hvalid : piece.WellFormed)
    (hend : piece.EndsBefore after) : Advances file source stage (stage.past file piece) where
  toGoesOn := h.goesOn hrest hvalid hend
  within := (h.past hrest hvalid hend).offset_le
  tokens := stage.tokens_past file piece

theorem StandsAt.givesUp {c : Char} {later : List Char} {stop : Stop}
    (h : StandsAt file source.toList stage) (hrest : source.toList.drop stage.offset = c :: later)
    (hread : Piece.read c later = .error stop) : GivesUp file source stage where
  fails := by
    obtain ⟨rest, hsplit, hbreaks⟩ := Piece.read_eq_error_iff.mp hread
    rw [hsplit] at hrest
    refine ⟨_, _, h.failsAt hrest hbreaks, Nat.le_add_right _ _, ?_⟩
    have hlength := congrArg List.length hrest
    have hwithin := h.offset_le
    rw [List.length_drop, List.length_append] at hlength
    omega
  last := by
    intro other hother
    obtain ⟨pieces, htiles, hoffset, -⟩ := standsAt_iff.mp h
    obtain ⟨pieces', htiles', hoffset', -⟩ := standsAt_iff.mp hother
    -- the pieces of the scan are those behind this stage, and they begin with the others
    have hstopped := of_eq_stopped_iff.mpr ⟨c, later, hrest ▸ htiles, hread⟩
    rw [of_tiles htiles'] at hstopped
    obtain ⟨rfl, -⟩ := Scan.mk.inj hstopped
    simp [hoffset, hoffset']

theorem GivesUp.tokenize_ne_ok (h : GivesUp file source stage) (tokens : List Token) :
    tokenize file source ≠ .ok tokens := by
  obtain ⟨_, _, ⟨_, herror, -⟩, -⟩ := h.fails
  rw [herror]
  exact nofun

theorem StandsAt.round (h : StandsAt file source.toList stage)
    (hinside : stage.offset < source.toList.length) :
    (∃ next, Advances file source stage next) ∨ GivesUp file source stage := by
  have hsome : source.toList.drop stage.offset ≠ [] := by
    rwa [ne_eq, List.drop_eq_nil_iff, Nat.not_le]
  obtain ⟨c, later, hrest⟩ := List.exists_cons_of_ne_nil hsome
  cases hread : Piece.read c later with
  | ok taken =>
    obtain ⟨hsplit, hvalid, hend⟩ := Piece.read_eq_ok_iff.mp hread
    exact .inl ⟨_, h.advances (hrest.trans hsplit) hvalid hend⟩
  | error stop => exact .inr (h.givesUp hrest hread)

-- ---------------------------------------------------------------------------
-- Runs of the loop
-- ---------------------------------------------------------------------------

theorem StandsAfter.standsAt (h : StandsAfter file source rounds stage) :
    StandsAt file source.toList stage := by
  cases h with
  | start => exact standsAt_start file source.toList
  | round _ hadvances => exact hadvances.stands

/-- Rounds are counted by characters, and tokens by rounds. -/
theorem StandsAfter.counts (h : StandsAfter file source rounds stage) :
    rounds ≤ stage.offset ∧ stage.tokens.length ≤ rounds ∧
      ∀ token ∈ stage.tokens, token.kind ≠ .endOfInput := by
  induction h with
  | start => simp
  | @round rounds stage next _ hadvances ih =>
    obtain ⟨hrounds, htokens, hkinds⟩ := ih
    have hlater := hadvances.later
    rcases hadvances.tokens with hsame | ⟨token, hkind, hadded⟩
    · rw [hsame]
      exact ⟨by omega, by omega, hkinds⟩
    · rw [hadded, List.length_append, List.length_singleton]
      refine ⟨by omega, by omega, fun other hother => ?_⟩
      rcases List.mem_append.mp hother with hbefore | hlast
      · exact hkinds other hbefore
      · rwa [List.mem_singleton.mp hlast]

/-- The stage at which pieces are passed and `rest` is left. -/
def Stage.ofPassed (file : Option String) (source : String) (passed : List Piece)
    (rest : List Char) : Stage where
  offset := source.toList.length - rest.length
  position := (Placement.ofPieces file passed.reverse).position
  tokens := (Placement.ofPieces file passed.reverse).tokens.reverse

theorem Stage.ofPassed_cons {passed : List Piece} (h : piece.text ++ after <:+ source.toList) :
    ofPassed file source (piece :: passed) after
      = (ofPassed file source passed (piece.text ++ after)).past file piece := by
  let before := ofPassed file source passed (piece.text ++ after)
  have hbefore : Placement.ofPieces file passed.reverse
      = ⟨before.position, before.tokens.reverse⟩ := by simp [before, ofPassed]
  have hpieces : Placement.ofPieces file (passed.reverse ++ [piece])
      = ⟨(before.past file piece).position, (before.past file piece).tokens.reverse⟩ :=
    ofPieces_past hbefore
  have hoffset : source.toList.length - after.length = (before.past file piece).offset := by
    have hlength := h.length_le
    rw [List.length_append] at hlength
    simp only [before, past, ofPassed, List.length_append]
    omega
  rw [ofPassed, List.reverse_cons, hpieces, hoffset, List.reverse_reverse]

/-- A test of the loop has as many rounds behind it as there are pieces. -/
theorem Reaches.standsAfter {passed : List Piece} {rest : List Char}
    (h : Reaches source.toList passed rest) :
    StandsAfter file source passed.length (.ofPassed file source passed rest) := by
  induction h with
  | start =>
    rw [Stage.ofPassed, Nat.sub_self]
    exact .start
  | @round passed c rest after piece hreaches hread ih =>
    obtain ⟨hsplit, hvalid, hend⟩ := Piece.read_eq_ok_iff.mp hread
    have hsuffix : c :: rest <:+ source.toList := ⟨_, hreaches.tiles.flatMap_append⟩
    rw [hsplit] at hsuffix ih
    rw [Stage.ofPassed_cons hsuffix]
    exact ih.round (ih.standsAt.advances (List.suffix_iff_eq_drop.mp hsuffix).symm hvalid hend)

/-- The tests of the loop are those that its rounds lead to. -/
theorem StandsAt.exists_standsAfter (h : StandsAt file source.toList stage) :
    ∃ rounds, StandsAfter file source rounds stage := by
  obtain ⟨passed, rest, hreaches, hoffset, hplacement⟩ := h
  have hstage : stage = .ofPassed file source passed rest := by
    rw [Stage.ofPassed, hplacement, List.reverse_reverse, ← hoffset, Nat.add_sub_cancel]
  exact ⟨_, hstage ▸ hreaches.standsAfter⟩

/-- At the end of the source, the scan adds a last token to those of the stage. -/
theorem StandsAt.tokenize_eq (h : StandsAt file source.toList stage)
    (hend : stage.offset = source.toList.length) :
    tokenize file source = .ok (stage.tokens ++ [.endOfInput file stage.position]) := by
  refine tokenize_eq_ok_iff.mpr ?_
  obtain ⟨pieces, htiles, -, hplacement⟩ := standsAt_iff.mp h
  rw [hend, List.drop_length] at htiles
  rw [Placement.ofPieces_eq, htiles.flatMap_eq, Placement.mk.injEq, List.reverse_inj] at hplacement
  obtain ⟨hposition, htokens⟩ := hplacement
  exact ⟨pieces, htiles, by rw [hposition, htokens]⟩

/-- As every round gets ahead, the loop comes to an end from wherever it stands. -/
theorem StandsAfter.ends {rounds : Nat} {stage : Stage}
    (h : StandsAfter file source rounds stage) :
    ∃ rounds, EndsAfter file source rounds ∧ rounds ≤ source.toList.length := by
  have hrounds := h.counts.1
  have hwithin := h.standsAt.offset_le
  by_cases hend : stage.offset = source.toList.length
  · exact ⟨rounds, .read h hend (h.standsAt.tokenize_eq hend), by omega⟩
  · have hinside : stage.offset < source.toList.length := by omega
    rcases h.standsAt.round hinside with ⟨next, hadvances⟩ | hgivesUp
    · have hlater := hadvances.later
      exact (h.round hadvances).ends
    · exact ⟨rounds + 1, .fault h hinside hgivesUp, by omega⟩
termination_by source.toList.length - stage.offset

theorem progress (file : Option String) (source : String) : Progress file source where
  round := StandsAt.round
  rounds := by
    intro stage h
    obtain ⟨rounds, hrounds⟩ := h.exists_standsAfter
    exact ⟨rounds, hrounds, hrounds.counts.1⟩
  ends := StandsAfter.start.ends
  tokens := by
    intro tokens h
    obtain ⟨rounds, hends, hlength⟩ := StandsAfter.start.ends
    cases hends with
    | read hstage hend hread =>
      obtain ⟨-, htokens, hkinds⟩ := hstage.counts
      cases h.symm.trans hread
      refine ⟨?_, _, _, rfl, rfl, hkinds⟩
      rw [List.length_append, List.length_singleton]
      omega
    | fault _ _ hgivesUp => exact absurd h (hgivesUp.tokenize_ne_ok _)

end Scan

theorem tokenize_progress (file : Option String) (source : String) :
    Scan.Progress file source ∧ (∀ (loop : InnerLoop) (text : List Char), loop.Progress text) ∧
      -- a cursor leaves the run of a property where the readers leave it
      ∀ {cursor : Cursor} {front rest : List Char}, cursor.Behind source front rest →
        ∀ property, ∃ taken next, rest = taken ++ (InnerLoop.run property).left rest ∧
          cursor.eatWhile? property = some next ∧
          next.Behind source (front ++ taken) ((InnerLoop.run property).left rest) := by
  refine ⟨Scan.progress file source, InnerLoop.progress, fun hbehind property => ?_⟩
  obtain ⟨next, hnext, hlater⟩ := hbehind.exists_eatWhile? property
  exact ⟨_, next, List.takeWhile_append_dropWhile.symm, hnext, hlater⟩

/-- A source whose first round is over a comment. -/
theorem tokenize_progress_comment :
    let source := "/*é*/é"
    let tokens : List Token := [.ofLexeme none ⟨0, 5⟩ (.identifier ['é']), .endOfInput none ⟨0, 6⟩]
    tokenize none source = .ok tokens ∧ tokens.length ≤ source.toList.length + 1 ∧
      Scan.StandsAt none source.toList ⟨0, .start, []⟩ ∧ 0 < source.toList.length ∧
      ∃ next, Scan.Advances none source ⟨0, .start, []⟩ next := by
  intro source tokens
  have h : tokenize none source = .ok tokens := by decide +kernel
  obtain ⟨hprogress, -⟩ := tokenize_progress none source
  have hstart := Scan.standsAt_start none source.toList
  have hinside : 0 < source.toList.length := by decide +kernel
  refine ⟨h, (hprogress.tokens h).1, hstart, hinside, ?_⟩
  exact (hprogress.round hstart hinside).resolve_right fun hgivesUp => hgivesUp.tokenize_ne_ok _ h

end KlangFront
