import KlangFront.Proofs.BrokenPieces
import KlangFront.Proofs.Loop
import KlangFront.Proofs.TokenSpans

/-!
# Rounds of the loop

A round of a scan takes the loop from one of its tests to the next one, or it
ends the scan in a fault. A `Scan.Stage` is what the loop has come to at a test:
an offset, the position there and the tokens so far. Behind a piece of the grammar
the loop stands at `Stage.past` (`StandsAt.goesOn`), and where a piece breaks off
the scan fails at the first character that was not passed (`StandsAt.failsAt`).
What stands in front of a stage has no part in either.
-/

namespace KlangFront.Scan

/-- How far the loop of a scan has come when it tests for the end of its text. -/
structure Stage where
  offset : Nat
  position : Position
  tokens : List Token

/-- The stage behind a piece that starts at this one. -/
def Stage.past (file : Option String) (stage : Stage) (piece : Piece) : Stage where
  offset := stage.offset + piece.text.length
  position := stage.position.after piece.text
  tokens := stage.tokens ++ (piece.lexeme?.map (Token.ofLexeme file stage.position)).toList

/-- The loop of a scan comes to a test at this stage. -/
def StandsAt (file : Option String) (source : List Char) (stage : Stage) : Prop :=
  ∃ passed rest, Reaches source passed rest ∧ stage.offset + rest.length = source.length ∧
    Placement.ofPieces file passed.reverse = ⟨stage.position, stage.tokens.reverse⟩

/-- The test at the first stage is followed by a test at the second one. -/
structure GoesOn (file : Option String) (source : List Char) (stage next : Stage) : Prop where
  stands : StandsAt file source next
  later : stage.offset < next.offset
  nearest : ∀ {between : Stage}, StandsAt file source between →
    between.offset ≤ stage.offset ∨ next.offset ≤ between.offset

/-- The scan of a source ends in a fault whose place is at an offset. -/
def FailsAt (file : Option String) (source : String) (offset : Nat) (fault : Fault) : Prop :=
  ∃ span : Span, tokenize file source = .error ⟨fault, span⟩ ∧
    span.PointsAt file source.toList offset

variable {file : Option String} {source after : List Char} {stage : Stage} {piece : Piece}

theorem standsAt_start (file : Option String) (source : List Char) :
    StandsAt file source ⟨0, .start, []⟩ :=
  ⟨[], source, .start, Nat.zero_add _, rfl⟩

/-- At a stage a tiling of the source ends. -/
theorem standsAt_iff : StandsAt file source stage ↔ ∃ pieces,
    Tiles source pieces (source.drop stage.offset) ∧
      stage.offset = (pieces.flatMap Piece.text).length ∧
      Placement.ofPieces file pieces = ⟨stage.position, stage.tokens.reverse⟩ := by
  constructor
  · rintro ⟨passed, rest, hreaches, hoffset, hplacement⟩
    have hsplit := hreaches.tiles.flatMap_append
    have hlength : stage.offset = (passed.reverse.flatMap Piece.text).length := by
      have hwhole := congrArg List.length hsplit
      rw [List.length_append] at hwhole
      omega
    have hrest : source.drop stage.offset = rest := by
      rw [hlength, ← hsplit, List.drop_left]
    exact ⟨passed.reverse, hrest ▸ hreaches.tiles, hlength, hplacement⟩
  · rintro ⟨pieces, htiles, hlength, hplacement⟩
    refine ⟨pieces.reverse, source.drop stage.offset, reaches_iff_tiles.mpr ?_, ?_, ?_⟩
    · rwa [List.reverse_reverse]
    · have hwhole := congrArg List.length htiles.flatMap_append
      rwa [List.length_append, ← hlength] at hwhole
    · rwa [List.reverse_reverse]

theorem Stage.ofPieces_past {pieces : List Piece}
    (h : Placement.ofPieces file pieces = ⟨stage.position, stage.tokens.reverse⟩) :
    Placement.ofPieces file (pieces ++ [piece])
      = ⟨(stage.past file piece).position, (stage.past file piece).tokens.reverse⟩ := by
  rw [Placement.ofPieces] at h ⊢
  rw [List.foldl_append, h]
  cases piece <;> simp [Placement.add, past, Piece.lexeme?]

theorem StandsAt.past (h : StandsAt file source stage)
    (hrest : source.drop stage.offset = piece.text ++ after) (hvalid : piece.WellFormed)
    (hend : piece.EndsBefore after) : StandsAt file source (stage.past file piece) := by
  obtain ⟨pieces, htiles, hlength, hplacement⟩ := standsAt_iff.mp h
  have hafter : source.drop (stage.past file piece).offset = after := by
    rw [Stage.past, ← List.drop_drop, hrest, List.drop_left]
  refine standsAt_iff.mpr ⟨pieces ++ [piece], ?_, ?_, Stage.ofPieces_past hplacement⟩
  · rw [hafter]
    rw [hrest] at htiles
    exact htiles.append (.piece hvalid hend .done)
  · simp [Stage.past, hlength]

/-- A piece of the grammar is read in one round. -/
theorem StandsAt.goesOn (h : StandsAt file source stage)
    (hrest : source.drop stage.offset = piece.text ++ after) (hvalid : piece.WellFormed)
    (hend : piece.EndsBefore after) : GoesOn file source stage (stage.past file piece) where
  stands := h.past hrest hvalid hend
  later := Nat.lt_add_of_pos_right (List.length_pos_iff.mpr hvalid.text_ne_nil)
  nearest := by
    intro between hbetween
    obtain ⟨pieces, htiles, hlength, -⟩ := standsAt_iff.mp h
    obtain ⟨pieces', htiles', hlength', -⟩ := standsAt_iff.mp hbetween
    have hnext : Tiles source (pieces ++ [piece]) after := by
      rw [hrest] at htiles
      exact htiles.append (.piece hvalid hend .done)
    have hmono {first second : List Piece} (hfront : first <+: second) :
        (first.flatMap Piece.text).length ≤ (second.flatMap Piece.text).length := by
      obtain ⟨behind, rfl⟩ := hfront
      simp
    rcases hnext.total htiles' with hfront | hfront
    · right
      simpa [Stage.past, hlength, hlength'] using hmono hfront
    · rcases List.prefix_concat_iff.mp hfront with rfl | hearlier
      · right
        simp [Stage.past, hlength, hlength']
      · left
        rw [hlength, hlength']
        exact hmono hearlier

/-- A scan whose pieces go as far as a broken one fails at the first character not passed. -/
theorem failsAt_of_breaksOff {source : String} {pieces : List Piece} {stop : Stop}
    {rest : List Char} (h : BreaksOff source.toList pieces stop rest) :
    FailsAt file source (pieces.flatMap Piece.text ++ stop.passed).length stop.fault :=
  ⟨_, tokenize_eq_breaksOff_iff.mpr ⟨pieces, stop, rest, h, rfl⟩,
    Span.pointsAt_point ⟨rest, h.append⟩⟩

/-- The scan fails where the piece at a stage breaks off. -/
theorem StandsAt.failsAt {source : String} {stop : Stop} {rest : List Char}
    (h : StandsAt file source.toList stage)
    (hrest : source.toList.drop stage.offset = stop.passed ++ rest) (hbreaks : stop.Breaks rest) :
    FailsAt file source (stage.offset + stop.passed.length) stop.fault := by
  obtain ⟨pieces, htiles, hlength, -⟩ := standsAt_iff.mp h
  rw [hlength, ← List.length_append]
  exact failsAt_of_breaksOff ⟨hrest ▸ htiles, hbreaks⟩

/-- What is passed of a broken piece goes as far as the end of the source if nothing follows. -/
theorem StandsAt.failsAt_end {source : String} {stop : Stop}
    (h : StandsAt file source.toList stage)
    (hrest : source.toList.drop stage.offset = stop.passed) (hbreaks : stop.Breaks []) :
    FailsAt file source source.toList.length stop.fault := by
  have hfails := h.failsAt (hrest.trans (List.append_nil _).symm) hbreaks
  obtain ⟨pieces, htiles, hlength, -⟩ := standsAt_iff.mp h
  have hwhole := congrArg List.length htiles.flatMap_append
  rw [List.length_append, ← hlength, hrest] at hwhole
  rwa [hwhole] at hfails

end KlangFront.Scan
