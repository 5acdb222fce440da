/-!
# Sets of characters given by ranges of code points

A character class of Unicode is a table of closed ranges in ascending order.
`CodeRange.search` stops at the first range that does not end below the code
point, so the letters of ASCII are found in the first ranges. The main
statement, `search_eq_true_iff`, says that on an ascending table the early stop
loses nothing: the search finds exactly the members of the ranges.
-/

namespace KlangFront

/-- All code points from `first` to `last`, both included. -/
structure CodeRange where
  first : Nat
  last : Nat

namespace CodeRange

def Contains (range : CodeRange) (code : Nat) : Prop :=
  range.first ≤ code ∧ code ≤ range.last

instance (range : CodeRange) (code : Nat) : Decidable (range.Contains code) := by
  unfold Contains
  infer_instance

/-- Each range is nonempty and ends before the next one starts. -/
def Ascending : List CodeRange → Prop
  | [] => True
  | [range] => range.first ≤ range.last
  | range :: next :: rest =>
    range.first ≤ range.last ∧ range.last < next.first ∧ Ascending (next :: rest)

instance decideAscending : (table : List CodeRange) → Decidable (Ascending table)
  | [] => .isTrue trivial
  | [range] => inferInstanceAs (Decidable (range.first ≤ range.last))
  | range :: next :: rest =>
    have := decideAscending (next :: rest)
    inferInstanceAs (Decidable
      (range.first ≤ range.last ∧ range.last < next.first ∧ Ascending (next :: rest)))

def search : List CodeRange → Nat → Bool
  | [], _ => false
  | range :: rest, code =>
    if code ≤ range.last then decide (range.first ≤ code) else search rest code

private theorem lt_first_of_mem {range : CodeRange} {table : List CodeRange}
    (ascending : Ascending (range :: table)) {later : CodeRange} (member : later ∈ table) :
    range.last < later.first := by
  induction table generalizing range with
  | nil => cases member
  | cons next rest ih =>
    obtain ⟨_, gap, tail⟩ := ascending
    rcases List.mem_cons.mp member with rfl | inRest
    · exact gap
    · have nonempty : next.first ≤ next.last := by
        cases rest with
        | nil => exact tail
        | cons _ _ => exact tail.1
      have := ih tail inRest
      omega

private theorem Ascending.tail {range : CodeRange} {table : List CodeRange}
    (ascending : Ascending (range :: table)) : Ascending table := by
  cases table with
  | nil => trivial
  | cons _ _ => exact ascending.2.2

theorem search_eq_true_iff {table : List CodeRange} (ascending : Ascending table) (code : Nat) :
    search table code = true ↔ ∃ range ∈ table, range.Contains code := by
  induction table with
  | nil => simp [search]
  | cons range rest ih =>
    unfold search
    split
    · next below =>
      simp only [decide_eq_true_eq, List.mem_cons, exists_eq_or_imp]
      constructor
      · exact fun above => .inl ⟨above, below⟩
      · rintro (here | ⟨later, member, inside⟩)
        · exact here.1
        · have := lt_first_of_mem ascending member
          have := inside.1
          omega
    · next beyond =>
      rw [ih ascending.tail]
      simp only [List.mem_cons, exists_eq_or_imp]
      constructor
      · exact .inr
      · rintro (here | later)
        · exact absurd here.2 beyond
        · exact later

end CodeRange

end KlangFront
