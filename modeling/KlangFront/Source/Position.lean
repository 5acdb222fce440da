import KlangFront.Source.Coord

/-!
# Positions in a text

A position counts the line feeds before it and the characters after the last of
them. The counts are exact; they become coordinates, which have a largest value,
only when a place is reported. `Position.after_append` lets a text be walked in
parts.
-/

namespace KlangFront

structure Position where
  lineFeeds : Nat
  /-- How many characters of the current line come before this position. -/
  indent : Nat
  deriving DecidableEq

namespace Position

def start : Position := ⟨0, 0⟩

def step (position : Position) (c : Char) : Position :=
  if c = '\n' then ⟨position.lineFeeds + 1, 0⟩ else ⟨position.lineFeeds, position.indent + 1⟩

/-- The position behind a text that begins here. -/
def after (position : Position) (text : List Char) : Position := text.foldl step position

@[simp] theorem after_nil (position : Position) : position.after [] = position := rfl

@[simp] theorem after_cons (position : Position) (c : Char) (text : List Char) :
    position.after (c :: text) = (position.step c).after text := rfl

theorem after_append (position : Position) (first second : List Char) :
    position.after (first ++ second) = (position.after first).after second :=
  List.foldl_append

theorem lineFeeds_after (position : Position) (text : List Char) :
    (position.after text).lineFeeds = position.lineFeeds + text.count '\n' := by
  induction text generalizing position with
  | nil => rfl
  | cons c rest ih =>
    rw [after_cons, ih, List.count_cons]
    by_cases lineFeed : c = '\n'
    · simp [step, lineFeed]
      omega
    · simp [step, lineFeed]

/-- Line of the character at this position. -/
def line (position : Position) : Coord := .clamp (position.lineFeeds + 1)

/-- Column of the character at this position. -/
def column (position : Position) : Coord := .clamp (position.indent + 1)

/-- Column of the character before this position, the first column at the start of a line. -/
def lastColumn (position : Position) : Coord := .clamp position.indent

end Position

end KlangFront
