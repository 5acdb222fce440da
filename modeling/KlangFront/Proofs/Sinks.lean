import KlangFront.Output.Sink

/-!
# Writing in pieces

A sink does not notice where one piece of text ends and the next one starts: writing
texts one after the other, up to the first that is not taken whole, is writing all of
them as one text (`Sink.writeAll_eq_write`). So whatever is said of a single write holds
of an answer in many lines.
-/

namespace KlangFront.Sink

/-- Room for all of the bytes leaves nothing out. -/
theorem extract_of_size_le {bytes : ByteArray} {room : Nat} (h : bytes.size ≤ room) :
    bytes.extract 0 room = bytes := by
  rw [← Nat.max_eq_left h]
  exact ByteArray.extract_zero_max_size

theorem write_empty (sink : Sink) : sink.write "" = (true, sink) := by
  obtain ⟨room, refusal, written⟩ := sink
  cases room <;> simp [write]

theorem write_append (sink : Sink) (first second : String) :
    sink.write (first ++ second) = match sink.write first with
      | (true, sink) => sink.write second
      | (false, sink) => (false, sink) := by
  obtain ⟨room, refusal, written⟩ := sink
  cases room with
  | none => simp [write, ByteArray.append_assoc]
  | some room =>
    simp only [write, String.toUTF8_eq_toByteArray, String.toByteArray_append]
    generalize first.toByteArray = a
    generalize second.toByteArray = b
    by_cases hfirst : a.size ≤ room
    · have hfront : a.extract 0 room = a := extract_of_size_le hfirst
      by_cases hsecond : b.size ≤ room - a.size
      · have hboth : a.size + b.size ≤ room := by omega
        simp [hfirst, hsecond, hboth, Nat.sub_sub, ByteArray.append_assoc]
      · have hboth : ¬a.size + b.size ≤ room := by omega
        simp [hfirst, hsecond, hboth, ByteArray.extract_append, hfront, ByteArray.append_assoc]
    · have hboth : ¬a.size + b.size ≤ room := by omega
      have hrest : room - a.size = 0 := by omega
      simp [hfirst, hboth, ByteArray.extract_append, hrest]

theorem writeAll_eq_write (sink : Sink) (texts : List String) :
    sink.writeAll texts = sink.write (String.join texts) := by
  induction texts generalizing sink with
  | nil => exact (write_empty sink).symm
  | cons text rest ih =>
    rw [String.join_cons, write_append, writeAll]
    rcases sink.write text with ⟨_ | _, after⟩
    · rfl
    · exact ih after

end KlangFront.Sink
