/-!
# Comments

A line comment runs up to the next line feed, which is not part of it. A block
comment runs through the first `*/` behind its opening two characters, whatever
stands in between: blocks do not nest, and the star of the opening `/*` does not
close it.

`splitClose?_eq` relates the accumulating search to the plain recursion
`close?`, and `append_of_close?` says that nothing is lost.
-/

namespace KlangFront.Comment

/-- The text behind the slashes of a line comment, and the rest. -/
def line (text : List Char) : List Char × List Char :=
  (text.takeWhile (· != '\n'), text.dropWhile (· != '\n'))

theorem append_line (text : List Char) : (line text).1 ++ (line text).2 = text :=
  List.takeWhile_append_dropWhile

/-- Splits a text behind its first `*/`. -/
def close? : List Char → Option (List Char × List Char)
  | [] => none
  | c :: rest =>
    if c = '*' ∧ rest.head? = some '/' then some (['*', '/'], rest.tail)
    else (close? rest).map fun split => (c :: split.1, split.2)

/-- `close?` in constant space: the characters already passed are kept in reverse. -/
def closeFrom? (passed : List Char) : List Char → Option (List Char × List Char)
  | [] => none
  | c :: rest =>
    if c = '*' ∧ rest.head? = some '/' then some (passed.reverse ++ ['*', '/'], rest.tail)
    else closeFrom? (c :: passed) rest

theorem closeFrom?_eq (passed text : List Char) :
    closeFrom? passed text
      = (close? text).map fun split => (passed.reverse ++ split.1, split.2) := by
  induction text generalizing passed with
  | nil => rfl
  | cons c rest ih =>
    unfold closeFrom? close?
    split
    · rfl
    · rw [ih]
      cases close? rest <;> simp

theorem append_of_close? {text body rest : List Char} (closed : close? text = some (body, rest)) :
    body ++ rest = text := by
  induction text generalizing body with
  | nil => cases closed
  | cons c tail ih =>
    unfold close? at closed
    split at closed
    · next here =>
      obtain ⟨rfl, slash⟩ := here
      obtain ⟨later, rfl⟩ := List.head?_eq_some_iff.mp slash
      cases closed
      rfl
    · obtain ⟨split, found, same⟩ := Option.map_eq_some_iff.mp closed
      cases same
      rw [List.cons_append, ih found]

end KlangFront.Comment
