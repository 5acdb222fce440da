import KlangFront.Proofs.CharacterClass
import KlangFront.Proofs.Grammar

/-!
# Reading comments

A line comment is the longest run without a line feed (`line_eq_iff`). A block
comment is closed by the first `*/` behind its opening, and is open exactly when
there is none (`close?_eq_some_iff`, `close?_eq_none_iff`).
-/

namespace KlangFront.Comment

variable {text body rest : List Char}

theorem line_eq_iff : line text = (body, rest) ↔
    text = body ++ rest ∧ '\n' ∉ body ∧ ∀ c ∈ rest.head?, c = '\n' := by
  rw [line, Prod.mk.injEq, run_eq_iff]
  simp only [bne_iff_ne, ne_eq, bne_eq_false_iff_eq]
  constructor
  · rintro ⟨hsplit, hbody, hrest⟩
    exact ⟨hsplit, fun hfeed => hbody _ hfeed rfl, hrest⟩
  · rintro ⟨hsplit, hbody, hrest⟩
    exact ⟨hsplit, fun c hc hfeed => hbody (hfeed ▸ hc), hrest⟩

/-- Whether the two characters of a closing `*/` stand at the front of a text. -/
theorem closes_iff {c : Char} :
    (c = '*' ∧ rest.head? = some '/') ↔ ['*', '/'] <+: c :: rest := by
  cases rest with
  | nil => simp
  | cons d later => simp [List.cons_prefix_cons, eq_comm]

theorem close?_eq_some_iff : close? text = some (body, rest) ↔
    text = body ++ rest ∧ Grammar.BlockBody body := by
  constructor
  · intro h
    refine ⟨(append_of_close? h).symm, ?_⟩
    induction text generalizing body with
    | nil => cases h
    | cons c later ih =>
      unfold close? at h
      split at h
      · cases h
        exact ⟨[], rfl, by simp⟩
      · next hopen =>
        obtain ⟨⟨found, after⟩, hfound, hsame⟩ := Option.map_eq_some_iff.mp h
        cases hsame
        obtain ⟨inner, rfl, hinner⟩ := ih hfound
        refine ⟨c :: inner, rfl, fun hclose => ?_⟩
        rcases List.infix_cons_iff.mp hclose with hfront | hlater
        · apply hopen
          rw [closes_iff, ← append_of_close? hfound, List.append_assoc, ← List.cons_append]
          exact hfront.trans (List.prefix_append _ _)
        · exact hinner hlater
  · rintro ⟨rfl, inner, rfl, hinner⟩
    induction inner with
    | nil => rfl
    | cons c inner ih =>
      have hopen : ¬ (c = '*' ∧ (inner ++ ['*', '/'] ++ rest).head? = some '/') := by
        rintro ⟨rfl, hslash⟩
        cases inner with
        | nil => simp at hslash
        | cons d inner =>
          obtain rfl : d = '/' := by simpa using hslash
          exact hinner (List.prefix_append ['*', '/'] inner).isInfix
      have hlater := ih fun hclose => hinner (List.infix_cons hclose)
      rw [List.cons_append, List.cons_append, close?, if_neg hopen, hlater]
      rfl

theorem close?_eq_none_iff : close? text = none ↔ ¬ ['*', '/'] <:+: text := by
  induction text with
  | nil => simp [close?]
  | cons c later ih =>
    rw [close?, List.infix_cons_iff, ← closes_iff]
    split
    · next hclose => simp [hclose]
    · next hopen => simp [hopen, ih]

end KlangFront.Comment
