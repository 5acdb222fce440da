import KlangFront.Proofs.Tiling

/-!
# The loop of a scan

A scan tests whether anything is left to read and, if so, reads one piece and
tests again. `Scan.Reaches` lists the tests that a scan comes to, whether it ends
well or stops at a fault later on: they are the calls of `Scan.continueFrom`
(`Reaches.of_eq`), and they stand where the tilings of the text end
(`reaches_iff_tiles`).
-/

namespace KlangFront.Scan

/-- The loop tests for the end of `rest` with these pieces passed, the latest first. -/
inductive Reaches (text : List Char) : List Piece → List Char → Prop
  | start : Reaches text [] text
  | round {passed : List Piece} {c : Char} {rest after : List Char} {piece : Piece} :
      Reaches text passed (c :: rest) → Piece.read c rest = .ok (piece, after) →
      Reaches text (piece :: passed) after

/-- The loop comes to a test at an offset of the source, with these tokens so far. -/
def Boundary (file : Option String) (source : List Char) (offset : Nat) (tokens : List Token) :
    Prop :=
  ∃ passed rest, Reaches source passed rest ∧ offset + rest.length = source.length ∧
    tokens = (Placement.ofPieces file passed.reverse).tokens.reverse

variable {text rest : List Char} {passed pieces : List Piece}

theorem Reaches.of_eq (h : Reaches text passed rest) : of text = continueFrom passed rest := by
  induction h with
  | start => rfl
  | round _ hread ih =>
    rw [ih, continueFrom]
    split
    · next hfound =>
      cases hread.symm.trans hfound
      rfl
    · next hfound => cases hread.symm.trans hfound

theorem Reaches.tiles (h : Reaches text passed rest) : Tiles text passed.reverse rest := by
  induction h with
  | start => exact .done
  | @round passed c rest after piece _ hread ih =>
    obtain ⟨hsplit, hvalid, hend⟩ := Piece.read_eq_ok_iff.mp hread
    have hpiece : Tiles (c :: rest) [piece] after := hsplit ▸ .piece hvalid hend .done
    simpa using ih.append hpiece

theorem Reaches.tiles_reach (h : Reaches text passed rest) {after : List Char}
    (htiles : Tiles rest pieces after) : Reaches text (pieces.reverse ++ passed) after := by
  induction htiles generalizing passed with
  | done => exact h
  | piece hvalid hend _ ih =>
    obtain ⟨c, later, hsplit, hread⟩ := Piece.read_of_wellFormed hvalid hend
    rw [hsplit] at h
    simpa using ih (h.round hread)

theorem reaches_iff_tiles : Reaches text passed rest ↔ Tiles text passed.reverse rest :=
  ⟨Reaches.tiles, fun h => by simpa using Reaches.start.tiles_reach h⟩

end KlangFront.Scan
