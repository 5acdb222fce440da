import KlangFront.Lexical.Reading

/-!
# String and character literals

Both literals are sequences of units between a pair of quotes. A unit is one
ordinary character or a backslash with a letter that it may escape. A string has
any number of units, a character literal exactly one. A line feed is never part
of a literal.

`Literal.string` and `Literal.character` read from behind the opening quote.
What they take is the body; the closing quote is consumed with it.
-/

namespace KlangFront

namespace Quoted

/-- Whether a backslash inside these quotes may stand before `c`. -/
def canEscape (quoted : Quoted) (c : Char) : Bool :=
  c == 'n' || c == 't' || c == quoted.quote || c == '\\'

end Quoted

namespace Literal

/-- The unit at the front of a text, and what follows it. -/
def unit? (quoted : Quoted) : List Char → Option (List Char × List Char)
  | [] => none
  | c :: rest =>
    if c = '\\' then
      match rest with
      | [] => none
      | letter :: after => if quoted.canEscape letter then some ([c, letter], after) else none
    else if c = quoted.quote ∨ c = '\n' then none
    else some ([c], rest)

theorem append_of_unit? {quoted : Quoted} {text unit rest : List Char}
    (found : unit? quoted text = some (unit, rest)) : unit ++ rest = text := by
  unfold unit? at found
  grind

theorem length_of_unit? {quoted : Quoted} {text unit rest : List Char}
    (found : unit? quoted text = some (unit, rest)) : rest.length < text.length := by
  unfold unit? at found
  grind

/-- The longest run of units at the front of a text, behind those `passed` in reverse. -/
def unitsFrom (quoted : Quoted) (passed text : List Char) : List Char × List Char :=
  match _found : unit? quoted text with
  | some (unit, rest) => unitsFrom quoted (unit.reverse ++ passed) rest
  | none => (passed.reverse, text)
termination_by text.length
decreasing_by exact length_of_unit? _found

def units (quoted : Quoted) (text : List Char) : List Char × List Char :=
  unitsFrom quoted [] text

/-- Why no further unit can be read where the closing quote does not stand either. -/
def obstacle (quoted : Quoted) : List Char → Stop
  | [] => ⟨.unterminated quoted, []⟩
  | c :: rest =>
    if c = '\\' then
      match rest with
      | [] => ⟨.unterminated quoted, [c]⟩
      | letter :: _ =>
        if letter = '\n' then ⟨.lineBreak quoted, [c]⟩ else ⟨.badEscape quoted letter, [c]⟩
    else ⟨.lineBreak quoted, []⟩

/-- The body of a string, read from behind its opening quote. -/
def string (text : List Char) : Reading (List Char) :=
  let (body, after) := units .string text
  match after with
  | [] => .error ((obstacle .string after).behind body)
  | c :: rest =>
    if c = '"' then .ok (body, rest) else .error ((obstacle .string after).behind body)

/-- The single unit of a character literal, read from behind its opening quote. -/
def character (text : List Char) : Reading (List Char) :=
  match unit? .character text with
  | some (unit, after) =>
    match after with
    | [] => .error ⟨.unterminated .character, unit⟩
    | c :: rest =>
      if c = '\'' then .ok (unit, rest)
      else if c = '\n' then .error ⟨.unterminated .character, unit⟩
      else .error ⟨.crowdedCharacter, unit⟩
  | none =>
    if text.head? = some '\'' then .error ⟨.emptyCharacter, []⟩
    else .error (obstacle .character text)

def read : Quoted → List Char → Reading (List Char)
  | .string => string
  | .character => character

theorem unitsFrom_of_unit? {quoted : Quoted} {passed text unit rest : List Char}
    (found : unit? quoted text = some (unit, rest)) :
    unitsFrom quoted passed text = unitsFrom quoted (unit.reverse ++ passed) rest := by
  rw [unitsFrom]
  split <;> simp_all

theorem unitsFrom_of_none {quoted : Quoted} {passed text : List Char}
    (blocked : unit? quoted text = none) :
    unitsFrom quoted passed text = (passed.reverse, text) := by
  rw [unitsFrom]
  split <;> simp_all

theorem append_unitsFrom (quoted : Quoted) (passed text : List Char) :
    (unitsFrom quoted passed text).1 ++ (unitsFrom quoted passed text).2
      = passed.reverse ++ text := by
  fun_induction unitsFrom quoted passed text with
  | case1 passed text unit rest found ih =>
    rw [ih, ← append_of_unit? found]
    simp
  | case2 passed text blocked => rfl

theorem append_units (quoted : Quoted) (text : List Char) :
    (units quoted text).1 ++ (units quoted text).2 = text :=
  append_unitsFrom quoted [] text

theorem append_of_read {quoted : Quoted} {text body rest : List Char}
    (accepted : read quoted text = .ok (body, rest)) : body ++ quoted.quote :: rest = text := by
  cases quoted with
  | string =>
    have whole := append_units .string text
    unfold read string at accepted
    cases after : (units .string text).2 with
    | nil => simp [after] at accepted
    | cons c tail =>
      simp only [after] at accepted
      split at accepted
      · next isQuote =>
        cases accepted
        rw [after, isQuote] at whole
        exact whole
      · cases accepted
  | character =>
    unfold read character at accepted
    cases found : unit? .character text with
    | none => simp only [found] at accepted; split at accepted <;> cases accepted
    | some split =>
      obtain ⟨unit, after⟩ := split
      have whole := append_of_unit? found
      cases after with
      | nil => simp [found] at accepted
      | cons c tail =>
        simp only [found] at accepted
        split at accepted
        · next isQuote =>
          cases accepted
          rw [isQuote] at whole
          exact whole
        · split at accepted <;> cases accepted

end Literal

end KlangFront
