import KlangFront.Source.Coord
import KlangFront.Text.Slice

/-!
# Cursors

A cursor moves through a text character by character. It knows how many bytes are behind
it, and the line and the column that it has come to; these two stay at the largest word
once they have reached it. What a cursor sees is cut out of the text at its offset. A
cursor that was put inside of a character, or behind the end of its text, sees nothing
and cannot be moved: `none` stands for that.
-/

namespace KlangFront

structure Cursor where
  source : String
  /-- How many bytes are behind the cursor. -/
  offset : String.Pos.Raw
  line : Coord
  /-- How many characters of the line are behind the cursor. -/
  indent : UInt32
  deriving DecidableEq

/-- The next larger word, if there is one, else the largest word. -/
def nextWord (word : UInt32) : UInt32 := if word.toNat < Coord.limit then word + 1 else word

theorem toNat_nextWord (word : UInt32) :
    (nextWord word).toNat = min (word.toNat + 1) Coord.limit := by
  have bound := word.toNat_lt
  unfold nextWord
  split
  · next small =>
    unfold Coord.limit at small ⊢
    rw [UInt32.toNat_add, UInt32.toNat_one, Nat.mod_eq_of_lt (by omega)]
    omega
  · next large =>
    unfold Coord.limit at large ⊢
    omega

namespace Cursor

def start (source : String) : Cursor := ⟨source, 0, .clamp 1, 0⟩

/-- What is ahead of the cursor. -/
def rest? (cursor : Cursor) : Option String :=
  Text.between? cursor.source cursor.offset cursor.source.rawEndPos

/-- The text from an offset to the cursor. -/
def sliceFrom? (cursor : Cursor) (first : String.Pos.Raw) : Option String :=
  Text.between? cursor.source first cursor.offset

/-- The character under the cursor, or the null character at the end. -/
def current? (cursor : Cursor) : Option Char :=
  cursor.rest?.map fun rest => rest.toList.headD '\x00'

/-- The character behind the current one, or the null character if there is none. -/
def peek? (cursor : Cursor) : Option Char :=
  cursor.rest?.map fun rest => rest.toList.tail.headD '\x00'

def isAtEnd (cursor : Cursor) : Bool :=
  decide (cursor.source.utf8ByteSize ≤ cursor.offset.byteIdx)

/-- Column of the character under the cursor. -/
def column (cursor : Cursor) : Coord := .clamp (cursor.indent.toNat + 1)

/-- Column of the character before the cursor, the first column at the start of a line. -/
def lastColumn (cursor : Cursor) : Coord := .clamp cursor.indent.toNat

/-- The cursor behind the character `c` under it. -/
def past (cursor : Cursor) (c : Char) : Cursor where
  source := cursor.source
  offset := cursor.offset + c
  line := if c = '\n' then .clamp (cursor.line.toNat + 1) else cursor.line
  indent := if c = '\n' then 0 else nextWord cursor.indent

/-- Moves behind the current character; at the end the cursor stays where it is. -/
def advance? (cursor : Cursor) : Option Cursor :=
  cursor.rest?.map fun rest =>
    match rest.toList with
    | [] => cursor
    | c :: _ => cursor.past c

theorem rest?_eq_some_iff {cursor : Cursor} {rest : String} : cursor.rest? = some rest ↔
    ∃ front, cursor.source = front ++ rest ∧ cursor.offset = front.rawEndPos := by
  unfold rest?
  rw [Text.between?_eq_some_iff]
  constructor
  · rintro ⟨front, behind, whole, offset, finish⟩
    refine ⟨front, ?_, offset⟩
    have nothing : behind.utf8ByteSize = 0 := by
      have bytes := congrArg String.Pos.Raw.byteIdx finish
      rw [whole, String.byteIdx_rawEndPos, String.byteIdx_rawEndPos,
        String.utf8ByteSize_append] at bytes
      omega
    rw [whole, String.utf8ByteSize_eq_zero_iff.mp nothing, String.append_empty]
  · rintro ⟨front, whole, offset⟩
    exact ⟨front, "", by rw [whole, String.append_empty], offset, by rw [whole]⟩

/-- A cursor that is not at the end gets ahead, within its text. -/
theorem offset_lt_of_advance? {cursor next : Cursor} (inside : cursor.isAtEnd = false)
    (advanced : cursor.advance? = some next) : next.source = cursor.source ∧
      cursor.offset.byteIdx < next.offset.byteIdx := by
  obtain ⟨rest, ahead, moved⟩ := Option.map_eq_some_iff.mp advanced
  obtain ⟨front, whole, offset⟩ := rest?_eq_some_iff.mp ahead
  split at moved
  · next nothing =>
    obtain rfl : rest = "" := by rwa [← String.toList_inj]
    simp [isAtEnd, whole, offset] at inside
  · next c later _ =>
    subst moved
    refine ⟨rfl, ?_⟩
    have size := c.utf8Size_pos
    simp only [past, String.Pos.Raw.byteIdx_add_char]
    omega

/-- Moves as long as the current character has a property, up to the end. -/
def eatWhile? (property : Char → Bool) (cursor : Cursor) : Option Cursor :=
  if _inside : cursor.isAtEnd then some cursor
  else
    match cursor.current? with
    | none => none
    | some c =>
      if property c then
        match _advanced : cursor.advance? with
        | none => none
        | some next => eatWhile? property next
      else some cursor
termination_by cursor.source.utf8ByteSize - cursor.offset.byteIdx
decreasing_by
  have inside : cursor.isAtEnd = false := by simpa using _inside
  obtain ⟨same, ahead⟩ := offset_lt_of_advance? inside _advanced
  have := of_decide_eq_false inside
  rw [same]
  omega

theorem eatWhile?_of_isAtEnd {property : Char → Bool} {cursor : Cursor}
    (finished : cursor.isAtEnd = true) : cursor.eatWhile? property = some cursor := by
  rw [eatWhile?, dif_pos finished]

theorem eatWhile?_of_stop {property : Char → Bool} {cursor : Cursor} {c : Char}
    (under : cursor.current? = some c) (stops : property c = false) :
    cursor.eatWhile? property = some cursor := by
  rw [eatWhile?, under]
  simp [stops]

theorem eatWhile?_of_advance? {property : Char → Bool} {cursor next : Cursor} {c : Char}
    (inside : cursor.isAtEnd = false) (under : cursor.current? = some c)
    (holds : property c = true) (advanced : cursor.advance? = some next) :
    cursor.eatWhile? property = next.eatWhile? property := by
  rw [eatWhile?, dif_neg (by simp [inside]), under]
  simp only [holds, if_true]
  split
  · next nowhere => cases advanced.symm.trans nowhere
  · next found =>
    cases advanced.symm.trans found
    rfl

end Cursor

end KlangFront
