/-!
# Sinks

A sink takes the bytes of the texts that are written to it. One with limited room
takes a front part of the text that no longer fits, refuses the rest, and from then
on is full. `Sink.writeAll` stops at the first refusal.
-/

namespace KlangFront

/-- Why a sink takes no more bytes. -/
inductive WriteError
  | full
  | noSpace
  deriving DecidableEq

def WriteError.message : WriteError → String
  | .full => "failed to write whole buffer"
  | .noSpace => "No space left on device (os error 28)"

structure Sink where
  /-- How many more bytes are taken, if there is a limit. -/
  room : Option Nat
  refusal : WriteError
  written : ByteArray

namespace Sink

def unlimited : Sink := ⟨none, .full, .empty⟩

def limited (room : Nat) : Sink := ⟨some room, .full, .empty⟩

/-- A device without any space left. -/
def fullDevice : Sink := ⟨some 0, .noSpace, .empty⟩

/-- Writes a text as far as there is room, and says whether all of it was taken. -/
def write (sink : Sink) (text : String) : Bool × Sink :=
  let bytes := text.toUTF8
  match sink.room with
  | none => (true, { sink with written := sink.written ++ bytes })
  | some room =>
    if bytes.size ≤ room then
      (true, { sink with room := some (room - bytes.size), written := sink.written ++ bytes })
    else
      (false, { sink with room := some 0, written := sink.written ++ bytes.extract 0 room })

/-- Writes texts one after the other, up to the first that is not taken whole. -/
def writeAll (sink : Sink) : List String → Bool × Sink
  | [] => (true, sink)
  | text :: rest =>
    match sink.write text with
    | (true, sink) => writeAll sink rest
    | (false, sink) => (false, sink)

end Sink

end KlangFront
