import KlangFront.Diagnostic.Report
import KlangFront.Proofs.Sinks
import KlangFront.Token.Listing

/-!
# Outputs with limited room

An output takes what it is offered in portions of its own choice. It takes something of
every offer as long as it has room, and a writer that is offered nothing back gives up.
`Intake.push` is this exchange, offer by offer, and `Intake.push_eq_write` says that the
portions leave no trace: what is taken is what `Sink.write` says. So a text that is written
in any pieces to an output with limited room arrives whole, if it fits, and is otherwise
cut where the room ends, be it inside of a line or of a character: `Intake.pushAll_limited`.
-/

namespace KlangFront

namespace Sink

/-- How many of the offered bytes there is room for. -/
def space (sink : Sink) (offered : ByteArray) : Nat :=
  match sink.room with
  | none => offered.size
  | some room => min room offered.size

/-- A sink after it has taken some bytes. -/
def take (sink : Sink) (bytes : ByteArray) : Sink :=
  { sink with room := sink.room.map (· - bytes.size), written := sink.written ++ bytes }

/-- What a text leaves at a sink with limited room, and whether all of it was taken. -/
def received (room : Nat) (text : String) : Bool × Sink :=
  let bytes := text.toUTF8
  if bytes.size ≤ room then (true, ⟨some (room - bytes.size), .full, bytes⟩)
  else (false, ⟨some 0, .full, bytes.extract 0 room⟩)

end Sink

/-- How an output takes what it is offered: in portions that may depend on all that came
before, but never more than there is room for, and nothing only if that is nothing. -/
structure Intake where
  portion : Sink → ByteArray → Nat
  portion_le : ∀ sink offered, portion sink offered ≤ sink.space offered
  portion_pos : ∀ sink offered, 0 < sink.space offered → 0 < portion sink offered

theorem Sink.space_le (sink : Sink) (offered : ByteArray) :
    sink.space offered ≤ offered.size := by
  unfold space
  cases sink.room with
  | none => exact Nat.le_refl _
  | some room => exact Nat.min_le_right _ _

namespace Intake

/-- Offers bytes until all of them are taken, or nothing of an offer is. -/
def push (intake : Intake) (sink : Sink) (offered : ByteArray) : Bool × Sink :=
  let taken := intake.portion sink offered
  if offered.size = 0 then (true, sink)
  else if taken = 0 then (false, sink)
  else intake.push (sink.take (offered.extract 0 taken)) (offered.extract taken offered.size)
termination_by offered.size
decreasing_by
  rw [ByteArray.size_extract]
  omega

/-- Writes texts one after the other, up to the first that is not taken whole. -/
def pushAll (intake : Intake) (sink : Sink) : List String → Bool × Sink
  | [] => (true, sink)
  | text :: rest =>
    match intake.push sink text.toUTF8 with
    | (true, sink) => intake.pushAll sink rest
    | (false, sink) => (false, sink)

end Intake

-- ---------------------------------------------------------------------------
-- Portions
-- ---------------------------------------------------------------------------

namespace Sink

variable (sink : Sink)

theorem take_empty : sink.take .empty = sink := by
  obtain ⟨room, refusal, written⟩ := sink
  cases room <;> simp [take]

theorem take_append (first second : ByteArray) :
    (sink.take first).take second = sink.take (first ++ second) := by
  obtain ⟨room, refusal, written⟩ := sink
  cases room <;> simp [take, Nat.sub_sub, ByteArray.append_assoc]

/-- What was taken is missing from the room for the rest. -/
theorem space_take {offered : ByteArray} {taken : Nat} (h : taken ≤ sink.space offered) :
    (sink.take (offered.extract 0 taken)).space (offered.extract taken offered.size)
      = sink.space offered - taken := by
  have hle := Nat.le_trans h (sink.space_le offered)
  obtain ⟨room, refusal, written⟩ := sink
  cases room with
  | none => simp [take, space]
  | some room =>
    simp only [take, space, Option.map_some, ByteArray.size_extract]
    omega

theorem write_eq (text : String) :
    sink.write text = (decide (sink.space text.toUTF8 = text.toUTF8.size),
      sink.take (text.toUTF8.extract 0 (sink.space text.toUTF8))) := by
  obtain ⟨room, refusal, written⟩ := sink
  simp only [write]
  generalize text.toUTF8 = bytes
  cases room with
  | none => simp [space, take, ByteArray.extract_zero_size]
  | some room =>
    simp only [space, take, Option.map_some, ByteArray.size_extract]
    by_cases h : bytes.size ≤ room
    · simp [h, ByteArray.extract_zero_size]
    · have hroom : min room bytes.size = room := by omega
      have hne : room ≠ bytes.size := by omega
      simp [h, hroom, hne]

end Sink

namespace Intake

variable (intake : Intake)

/-- However an output divides what it is offered, it takes the front part that there is
room for. -/
theorem push_eq (sink : Sink) (offered : ByteArray) :
    intake.push sink offered = (decide (sink.space offered = offered.size),
      sink.take (offered.extract 0 (sink.space offered))) := by
  -- by the offers: each one takes as much from the room as from the bytes that are left
  fun_induction push intake sink offered with
  | case1 sink offered hempty =>
    have hspace : sink.space offered = 0 := Nat.le_zero.mp (hempty ▸ sink.space_le offered)
    simp [hspace, hempty, Sink.take_empty]
  | case2 sink offered taken hsome hnone =>
    have hspace : sink.space offered = 0 := by
      have hpos := intake.portion_pos sink offered
      omega
    simp [hspace, Ne.symm hsome, Sink.take_empty]
  | case3 sink offered taken hsome htaken ih =>
    have hle : taken ≤ sink.space offered := intake.portion_le sink offered
    have hspace := sink.space_le offered
    have hfront : offered.extract 0 taken
        ++ (offered.extract taken offered.size).extract 0 (sink.space offered - taken)
        = offered.extract 0 (sink.space offered) := by
      rw [ByteArray.extract_extract, Nat.add_zero, ByteArray.extract_append_extract]
      congr 1
      all_goals omega
    rw [ih, sink.space_take hle, Sink.take_append, hfront, ByteArray.size_extract]
    congr 2
    exact propext (by omega)

theorem push_eq_write (sink : Sink) (text : String) :
    intake.push sink text.toUTF8 = sink.write text := by
  rw [push_eq, Sink.write_eq]

theorem pushAll_eq_writeAll (sink : Sink) (texts : List String) :
    intake.pushAll sink texts = sink.writeAll texts := by
  induction texts generalizing sink with
  | nil => rfl
  | cons text rest ih =>
    rw [pushAll, Sink.writeAll, push_eq_write]
    rcases sink.write text with ⟨_ | _, after⟩
    · rfl
    · exact ih after

end Intake

-- ---------------------------------------------------------------------------
-- Where a text is cut
-- ---------------------------------------------------------------------------

namespace Sink

theorem write_limited (room : Nat) (text : String) :
    (limited room).write text = received room text := by
  simp only [write, limited, received, ByteArray.empty_append]

theorem writeAll_limited (room : Nat) (texts : List String) :
    (limited room).writeAll texts = received room (String.join texts) := by
  rw [writeAll_eq_write, write_limited]

/-- Texts that do not fit end inside of one of them. -/
theorem exists_cut {texts : List String} {room : Nat}
    (h : room < (String.join texts).toUTF8.size) :
    ∃ before text after, texts = before ++ text :: after ∧
      (String.join before).toUTF8.size ≤ room ∧
      room - (String.join before).toUTF8.size < text.toUTF8.size := by
  induction texts generalizing room with
  | nil => simp at h
  | cons first rest ih =>
    by_cases hfirst : room < first.toUTF8.size
    · exact ⟨[], first, rest, rfl, by simp, by simpa using hfirst⟩
    · have hrest : room - first.toUTF8.size < (String.join rest).toUTF8.size := by
        simp only [String.join_cons, String.toUTF8_eq_toByteArray, String.toByteArray_append,
          ByteArray.size_append] at h hfirst ⊢
        omega
      obtain ⟨before, text, after, rfl, hle, hlt⟩ := ih hrest
      refine ⟨first :: before, text, after, rfl, ?_⟩
      simp only [String.join_cons, String.toUTF8_eq_toByteArray, String.toByteArray_append,
        ByteArray.size_append] at hfirst hle hlt ⊢
      omega

/-- The texts in front of the one where the room ends are taken whole, a front part of this
one is, and the texts behind it do not matter. -/
theorem received_cut {before : List String} {text : String} {room : Nat}
    (hle : (String.join before).toUTF8.size ≤ room)
    (hlt : room - (String.join before).toUTF8.size < text.toUTF8.size) (after : List String) :
    received room (String.join (before ++ text :: after))
      = (false, ⟨some 0, .full, (String.join before).toUTF8
          ++ text.toUTF8.extract 0 (room - (String.join before).toUTF8.size)⟩) := by
  simp only [received, String.join_append, String.join_cons, String.toUTF8_eq_toByteArray,
    String.toByteArray_append] at hle hlt ⊢
  generalize (String.join before).toByteArray = front at hle hlt ⊢
  generalize text.toByteArray = bytes at hlt ⊢
  have hfront : front.extract 0 room = front := extract_of_size_le hle
  have hbytes : room - front.size - bytes.size = 0 := by omega
  rw [if_neg (by simp only [ByteArray.size_append]; omega), ByteArray.extract_append,
    ByteArray.extract_append, hfront, Nat.zero_sub, Nat.zero_sub, hbytes]
  simp

end Sink

-- ---------------------------------------------------------------------------
-- Listings and reports
-- ---------------------------------------------------------------------------

/-- A listing, in whatever pieces it is written, and a report arrive whole at an output with
limited room if their bytes fit, and otherwise as many of the bytes as do. A listing that
does not fit is cut inside of one of its lines. The lines in front of it arrive in their
order, each of them once, and nothing that follows is written. -/
theorem Intake.pushAll_limited {m : Type → Type} [Monad m] [LawfulMonad m]
    (intake : Intake) (room : Nat) :
    (∀ sink texts, intake.pushAll sink texts = sink.writeAll texts) ∧
    (∀ path tokens pieces, String.join pieces = Listing.text path tokens →
      intake.pushAll (.limited room) pieces = Sink.received room (Listing.text path tokens)) ∧
    (∀ (read : String → m (Option String)) options (d : Diagnostic),
      (fun text => intake.push (.limited room) text.toUTF8) <$> d.report read options
        = Sink.received room <$> d.report read options) ∧
    ∀ path tokens, room < (Listing.text path tokens).toUTF8.size →
      ∃ before line after taken, Listing.lines path tokens = before ++ line :: after ∧
        taken < line.toUTF8.size ∧
        ∀ others, intake.pushAll (.limited room) (before ++ line :: others)
          = (false, ⟨some 0, .full,
              (String.join before).toUTF8 ++ line.toUTF8.extract 0 taken⟩) := by
  have hall (texts : List String) :
      intake.pushAll (.limited room) texts = Sink.received room (String.join texts) := by
    rw [pushAll_eq_writeAll, Sink.writeAll_limited]
  refine ⟨intake.pushAll_eq_writeAll, ?_, ?_, ?_⟩
  · intro path tokens pieces hpieces
    rw [hall, hpieces]
  · intro read options d
    simp only [push_eq_write, Sink.write_limited]
  · intro path tokens h
    obtain ⟨before, line, after, hlines, hle, hlt⟩ := Sink.exists_cut h
    refine ⟨before, line, after, _, hlines, hlt, fun others => ?_⟩
    rw [hall, Sink.received_cut hle hlt]

/-- An output that takes one byte at a time. -/
def Intake.bytewise : Intake where
  portion sink offered := min 1 (sink.space offered)
  portion_le _ _ := Nat.min_le_right _ _
  portion_pos _ _ h := Nat.lt_min.mpr ⟨Nat.one_pos, h⟩

/-- A listing whose path has a character of two bytes: room that ends between them, with or
without the lines that follow, and room that is just enough. -/
theorem Intake.pushAll_limited_inside_character :
    let token : Token := ⟨.endOfInput, none, .point none (.clamp 1) (.clamp 1)⟩
    let text := Listing.text "ß.k" [token]
    let pieces := ["Tokens for '", "ß.k", "' (", "1", " tokens):\n", "  ", "", "EOF", " @ ", "1",
      ":", "1", "\n"]
    String.join pieces = text ∧ 13 < text.toUTF8.size ∧
      bytewise.pushAll (.limited 13) pieces
        = (false, ⟨some 0, .full, "Tokens for '".toUTF8.push 195⟩) ∧
      (∃ before line after, Listing.lines "ß.k" [token] = before ++ line :: after ∧
        bytewise.pushAll (.limited 13) (before ++ [line])
          = bytewise.pushAll (.limited 13) (before ++ line :: after)) ∧
      bytewise.pushAll (.limited 42) pieces = (true, ⟨some 0, .full, text.toUTF8⟩) := by
  intro token text pieces
  have hpieces : String.join pieces = text := by decide +kernel
  have hsize : text.toUTF8.size = 42 := by decide +kernel
  have hwritten (room : Nat) :
      bytewise.pushAll (.limited room) pieces = Sink.received room text :=
    (pushAll_limited (m := Id) bytewise room).2.1 "ß.k" [token] pieces hpieces
  have hfront : text.toUTF8.extract 0 13 = "Tokens for '".toUTF8.push 195 := by decide +kernel
  have hshort : 13 < text.toUTF8.size := by omega
  obtain ⟨before, line, after, taken, hlines, -, hcut⟩ :=
    (pushAll_limited (m := Id) bytewise 13).2.2.2 "ß.k" [token] hshort
  refine ⟨hpieces, hshort, (hwritten 13).trans ?_,
    ⟨before, line, after, hlines, (hcut []).trans (hcut after).symm⟩, (hwritten 42).trans ?_⟩
  · rw [Sink.received, if_neg (by omega), hfront]
  · rw [Sink.received, if_pos (by omega), hsize]

end KlangFront
