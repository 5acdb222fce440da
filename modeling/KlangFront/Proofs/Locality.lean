import KlangFront.Proofs.BrokenPieces
import KlangFront.Proofs.Places

/-!
# What decides an error

The error of a source is decided by the characters up to the offending one and,
for a fault that consists in what does not follow, by one more. A text that agrees
with the source as far as that has the same error (`tokenize_local`).
-/

namespace KlangFront

/-- Whether the fault consists in what does not come behind the offending character. -/
def Fault.looksAhead : Fault → Bool
  | danglingSigil | loneAmpersand | loneBar | missingFraction | missingGroup => true
  | _ => false

variable {text rest other : List Char} {pieces : List Piece} {stop : Stop}
  {file : Option String} {source : String}

/-- A break depends on the offending character, and on the next one if its fault looks ahead. -/
theorem Stop.Breaks.exchange (h : stop.Breaks rest) (hhead : other.head? = rest.head?)
    (hnext : stop.fault.looksAhead = true → other.tail.head? = rest.tail.head?) :
    stop.Breaks other := by
  cases h with
  | strayCharacter hspace hword hdigit hother hsingle =>
    obtain ⟨later, rfl⟩ := List.head?_eq_some_iff.mp hhead
    exact .strayCharacter hspace hword hdigit hother hsingle
  | danglingSigil hnone =>
    obtain ⟨later, rfl⟩ := List.head?_eq_some_iff.mp hhead
    exact .danglingSigil (hnext rfl ▸ hnone)
  | loneAmpersand hnone =>
    obtain ⟨later, rfl⟩ := List.head?_eq_some_iff.mp hhead
    exact .loneAmpersand (hnext rfl ▸ hnone)
  | loneBar hnone =>
    obtain ⟨later, rfl⟩ := List.head?_eq_some_iff.mp hhead
    exact .loneBar (hnext rfl ▸ hnone)
  | openComment hopen =>
    obtain rfl := List.head?_eq_none_iff.mp hhead
    exact .openComment hopen
  | lineBreak hopened hslash =>
    obtain ⟨later, rfl⟩ := List.head?_eq_some_iff.mp hhead
    exact .lineBreak hopened hslash
  | badEscape hopened hfeed hillegal =>
    obtain ⟨later, rfl⟩ := List.head?_eq_some_iff.mp hhead
    exact .badEscape hopened hfeed hillegal
  | unterminated hopened hslash =>
    obtain rfl := List.head?_eq_none_iff.mp hhead
    exact .unterminated hopened hslash
  | emptyCharacter =>
    obtain ⟨later, rfl⟩ := List.head?_eq_some_iff.mp hhead
    exact .emptyCharacter
  | unclosedCharacter hunit hend => exact .unclosedCharacter hunit (hhead ▸ hend)
  | crowdedCharacter hunit hquote hfeed =>
    obtain ⟨later, rfl⟩ := List.head?_eq_some_iff.mp hhead
    exact .crowdedCharacter hunit hquote hfeed
  | missingFraction hwhole hnone =>
    obtain ⟨later, rfl⟩ := List.head?_eq_some_iff.mp hhead
    exact .missingFraction hwhole (hnext rfl ▸ hnone)
  | missingGroup hwhole hfraction hnone =>
    obtain ⟨later, rfl⟩ := List.head?_eq_some_iff.mp hhead
    exact .missingGroup hwhole hfraction (hnext rfl ▸ hnone)
  | wordAfterNumber hnumber hword =>
    obtain ⟨later, rfl⟩ := List.head?_eq_some_iff.mp hhead
    exact .wordAfterNumber hnumber hword

theorem BreaksOff.exchange (h : BreaksOff text pieces stop rest)
    (hhead : other.head? = rest.head?)
    (hnext : stop.fault.looksAhead = true → other.tail.head? = rest.tail.head?) :
    BreaksOff (pieces.flatMap Piece.text ++ stop.passed ++ other) pieces stop other := by
  refine ⟨?_, h.breaks.exchange hhead hnext⟩
  rw [List.append_assoc]
  -- the last piece ends before what was passed of the broken one, or before `other`
  refine h.tiles.exchange fun piece hend c hc => hend c ?_
  rwa [List.head?_append, ← hhead, ← List.head?_append]

/-- A text that agrees with another one up to some characters behind a front part of it. -/
theorem agree_behind {front : List Char} {count : Nat}
    (h : (front ++ rest).take (front.length + count) = text.take (front.length + count)) :
    ∃ later, text = front ++ later ∧ ∀ i < count, later[i]? = rest[i]? := by
  rw [List.take_length_add_append] at h
  have hfront : front <+: text :=
    (List.prefix_append front _).trans (h ▸ List.take_prefix _ text)
  obtain ⟨later, rfl⟩ := hfront
  rw [List.take_length_add_append] at h
  refine ⟨later, rfl, fun i hi => ?_⟩
  rw [← List.getElem?_take_of_lt hi, ← List.append_cancel_left h, List.getElem?_take_of_lt hi]

/-- A text that agrees with a broken one up to what its fault looks at breaks off there too. -/
theorem BreaksOff.agree {count : Nat} (h : BreaksOff text pieces stop rest)
    (hagree : text.take ((pieces.flatMap Piece.text ++ stop.passed).length + count)
      = other.take ((pieces.flatMap Piece.text ++ stop.passed).length + count))
    (hhead : 0 < count) (hnext : stop.fault.looksAhead = true → 1 < count) :
    ∃ later, BreaksOff other pieces stop later := by
  rw [← h.append] at hagree
  obtain ⟨later, rfl, hsame⟩ := agree_behind hagree
  refine ⟨later, h.exchange ?_ fun hlooks => ?_⟩
  · simpa [List.head?_eq_getElem?] using hsame 0 hhead
  · simpa [List.head?_tail] using hsame 1 (hnext hlooks)

theorem tokenize_local {error : LexicalError} (h : tokenize file source = .error error) :
    ∃ offset, Scan.offence? source.toList = some offset ∧
      error.span.PointsAt file source.toList offset ∧
      ∀ other : String,
        (source.toList.take (offset + 2) = other.toList.take (offset + 2) →
          tokenize file other = .error error) ∧
        (error.fault.looksAhead = false →
          source.toList.take (offset + 1) = other.toList.take (offset + 1) →
          tokenize file other = .error error) := by
  obtain ⟨pieces, stop, rest, hbroken, rfl⟩ := tokenize_eq_breaksOff_iff.mp h
  have hfront : pieces.flatMap Piece.text ++ stop.passed <+: source.toList := ⟨rest, hbroken.append⟩
  refine ⟨_, hbroken.offence, Span.pointsAt_point hfront, fun other => ⟨fun hagree => ?_, ?_⟩⟩
  · obtain ⟨later, hother⟩ := hbroken.agree hagree (by decide) fun _ => by decide
    exact tokenize_eq_breaksOff_iff.mpr ⟨pieces, stop, later, hother, rfl⟩
  · intro hblind hagree
    obtain ⟨later, hother⟩ := hbroken.agree hagree (by decide) fun hlooks => by
      rw [hblind] at hlooks
      cases hlooks
    exact tokenize_eq_breaksOff_iff.mpr ⟨pieces, stop, later, hother, rfl⟩

/-- A lone ampersand behind a comment, and a text that differs behind the blank that follows. -/
theorem tokenize_local_ampersand :
    let source := "/*&&\n*/& 'x"
    let other := "/*&&\n*/& \"x\""
    let error : LexicalError :=
      ⟨.loneAmpersand, .point none (Position.line ⟨1, 2⟩) (Position.column ⟨1, 2⟩)⟩
    tokenize none source = .error error ∧ Scan.offence? source.toList = some 7 ∧
      source.toList.take (7 + 2) = other.toList.take (7 + 2) ∧
      error.span.PointsAt none source.toList 7 ∧ tokenize none other = .error error := by
  intro source other error
  have h : tokenize none source = .error error := by decide +kernel
  have hseven : Scan.offence? source.toList = some 7 := by decide +kernel
  have hagree : source.toList.take (7 + 2) = other.toList.take (7 + 2) := by decide +kernel
  obtain ⟨offset, hoffset, hspan, hlocal⟩ := tokenize_local h
  obtain rfl : offset = 7 := Option.some.inj (hoffset.symm.trans hseven)
  exact ⟨h, hseven, hagree, hspan, (hlocal other).1 hagree⟩

end KlangFront
