import KlangFront.Lexical.Reading
import KlangFront.Text.Alphabetic

/-!
# Numbers

A number is a run of digits, then at most one group of digits behind a point,
then at most one group behind an underscore. The digits are the ten of ASCII. A
mark needs a digit behind it, and a number needs something other than an
alphabetic character behind it. `Number.read` takes the text as it is written;
`append_of_read` says that it takes a front part of the text.
-/

namespace KlangFront.Number

def digits (text : List Char) : List Char := text.takeWhile Char.isDigit

def afterDigits (text : List Char) : List Char := text.dropWhile Char.isDigit

/-- A group of digits behind `mark`, or nothing where the text does not go on with `mark`. -/
def group (mark : Char) (fault : Fault) (text : List Char) : Reading (List Char) :=
  match text with
  | [] => .ok ([], [])
  | c :: rest =>
    if c = mark then
      if digits rest = [] then .error ⟨fault, []⟩ else .ok (c :: digits rest, afterDigits rest)
    else .ok ([], text)

def read (text : List Char) : Reading (List Char) :=
  let whole := digits text
  match group '.' .missingFraction (afterDigits text) with
  | .error stop => .error (stop.behind whole)
  | .ok (fraction, afterFraction) =>
    match group '_' .missingGroup afterFraction with
    | .error stop => .error (stop.behind (whole ++ fraction))
    | .ok (last, rest) =>
      let number := whole ++ fraction ++ last
      if rest.head?.any isAlphabetic then .error ⟨.wordAfterNumber, number⟩
      else .ok (number, rest)

theorem append_digits (text : List Char) : digits text ++ afterDigits text = text :=
  List.takeWhile_append_dropWhile

theorem append_of_group {mark : Char} {fault : Fault} {text part rest : List Char}
    (accepted : group mark fault text = .ok (part, rest)) : part ++ rest = text := by
  unfold group at accepted
  cases text with
  | nil =>
    cases accepted
    rfl
  | cons c later =>
    simp only at accepted
    split at accepted
    · split at accepted
      · cases accepted
      · cases accepted
        exact congrArg (c :: ·) (append_digits later)
    · cases accepted
      rfl

theorem append_of_read {text number rest : List Char} (accepted : read text = .ok (number, rest)) :
    number ++ rest = text := by
  unfold read at accepted
  cases fraction : group '.' .missingFraction (afterDigits text) with
  | error stop => simp [fraction] at accepted
  | ok first =>
    cases separated : group '_' .missingGroup first.2 with
    | error stop => simp [fraction, separated] at accepted
    | ok second =>
      simp only [fraction, separated] at accepted
      split at accepted
      · cases accepted
      · cases accepted
        rw [List.append_assoc, List.append_assoc, append_of_group separated,
          append_of_group fraction, append_digits]

theorem ne_nil_of_read {c : Char} (digit : c.isDigit = true) {later number rest : List Char}
    (accepted : read (c :: later) = .ok (number, rest)) : number ≠ [] := by
  unfold read at accepted
  split at accepted
  · cases accepted
  · split at accepted
    · cases accepted
    · simp only at accepted
      split at accepted
      · cases accepted
      · cases accepted
        simp [digits, digit]

end KlangFront.Number
