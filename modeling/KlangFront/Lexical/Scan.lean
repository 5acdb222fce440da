import KlangFront.Lexical.Piece

/-!
# Scanning a whole text

A scan reads pieces off the front of a text until nothing is left or a fault
stops it. `Scan.of` is the scan; it keeps the pieces in reverse while it runs,
and `Scan.of_cons_of_read` and its companions give the plain recursion. Every
round takes at least one character, which bounds the loop by the length of the
text. The main statement is `Scan.flatMap_pieces`: the pieces of a scan that does
not stop are written exactly as the source.
-/

namespace KlangFront

structure Scan where
  pieces : List Piece
  stop : Option Stop
  deriving DecidableEq

namespace Scan

/-- The scan of a text behind pieces that were already read, the latest first. -/
def continueFrom (passed : List Piece) (text : List Char) : Scan :=
  match text with
  | [] => ⟨passed.reverse, none⟩
  | c :: rest =>
    match _accepted : Piece.read c rest with
    | .ok (piece, after) => continueFrom (piece :: passed) after
    | .error stop => ⟨passed.reverse, some stop⟩
termination_by text.length
decreasing_by exact Piece.length_of_read _accepted

def of (text : List Char) : Scan := continueFrom [] text

theorem continueFrom_eq (passed : List Piece) (text : List Char) :
    continueFrom passed text = ⟨passed.reverse ++ (of text).pieces, (of text).stop⟩ := by
  unfold of
  cases text with
  | nil => simp [continueFrom]
  | cons c rest =>
    rw [continueFrom, continueFrom]
    split
    · next piece after accepted =>
      rw [continueFrom_eq (piece :: passed) after, continueFrom_eq [piece] after]
      simp
    · simp
termination_by text.length
decreasing_by all_goals exact Piece.length_of_read ‹_›

@[simp] theorem of_nil : of [] = ⟨[], none⟩ := by
  rw [of, continueFrom, List.reverse_nil]

theorem of_cons_of_read {c : Char} {rest after : List Char} {piece : Piece}
    (accepted : Piece.read c rest = .ok (piece, after)) :
    of (c :: rest) = ⟨piece :: (of after).pieces, (of after).stop⟩ := by
  rw [of, continueFrom]
  split
  · next found =>
    cases accepted.symm.trans found
    rw [continueFrom_eq]
    rfl
  · next found => cases accepted.symm.trans found

theorem of_cons_of_stop {c : Char} {rest : List Char} {stop : Stop}
    (stopped : Piece.read c rest = .error stop) : of (c :: rest) = ⟨[], some stop⟩ := by
  rw [of, continueFrom]
  split
  · next found => cases stopped.symm.trans found
  · next found =>
    cases stopped.symm.trans found
    rfl

theorem flatMap_pieces : ∀ {text : List Char}, (of text).stop = none →
    (of text).pieces.flatMap Piece.text = text
  | [], _ => by simp
  | c :: rest, complete => by
    cases outcome : Piece.read c rest with
    | error stop =>
      rw [of_cons_of_stop outcome] at complete
      cases complete
    | ok taken =>
      obtain ⟨piece, after⟩ := taken
      rw [of_cons_of_read outcome] at complete ⊢
      rw [List.flatMap_cons, flatMap_pieces complete]
      exact Piece.append_of_read outcome
termination_by text => text.length
decreasing_by exact Piece.length_of_read ‹_›

end Scan

end KlangFront
