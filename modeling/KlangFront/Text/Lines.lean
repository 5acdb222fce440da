import KlangFront.Text.Split

/-!
# Lines of a text

A line ends at a line feed, and a carriage return directly before that line feed
belongs to the line end. Every other carriage return is part of its line, and so
is one that ends the text. A text that ends in a line feed has no empty line
after it.
-/

namespace KlangFront.Text

/-- A line without the carriage return that its line end took from it. -/
def dropReturn (line : List Char) : List Char :=
  if line.getLast? = some '\r' then line.dropLast else line

def lines (text : List Char) : List (List Char) :=
  let stretches := split '\n' text
  stretches.dropLast.map dropReturn ++ stretches.getLast?.toList.filter (!·.isEmpty)

theorem lines_terminated {rows : List (List Char)} (absent : ∀ row ∈ rows, '\n' ∉ row) :
    lines (rows.flatMap (· ++ ['\n'])) = rows.map dropReturn := by
  simp [lines, split_terminated absent]

theorem lineFeed_not_mem_of_mem_lines {text line : List Char} (member : line ∈ lines text) :
    '\n' ∉ line := by
  rw [lines, List.mem_append, List.mem_map] at member
  rcases member with ⟨stretch, early, rfl⟩ | last
  · have plain := not_mem_of_mem_split (List.dropLast_subset _ early)
    unfold dropReturn
    split
    · exact fun feed => plain (List.dropLast_subset _ feed)
    · exact plain
  · have final := (List.mem_filter.mp last).1
    exact not_mem_of_mem_split (List.mem_of_getLast? (Option.mem_toList.mp final))

/-- The line with a given number, counted from one, if the text reaches it. -/
def line? (text : List Char) (number : Nat) : Option (List Char) :=
  (lines text)[number - 1]?

theorem lineFeed_not_mem_of_line? {text line : List Char} {number : Nat}
    (found : line? text number = some line) : '\n' ∉ line :=
  lineFeed_not_mem_of_mem_lines (List.mem_of_getElem? found)

end KlangFront.Text
