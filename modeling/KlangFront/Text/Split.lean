/-!
# Cutting a text at a separator

`Text.split` keeps every stretch between two separators, empty ones included, so
there is one stretch more than there are separators (`length_split`). What stands
before the first separator of a text and what stands behind the last one are
determined by the text (`cut_first_inj`, `cut_last_inj`).
-/

namespace KlangFront.Text

/-- The stretches of a text between the occurrences of a separator. -/
def split (separator : Char) (text : List Char) : List (List Char) :=
  text.foldr
    (fun c later => if c = separator then [] :: later else (c :: later.headD []) :: later.tail)
    [[]]

@[simp] theorem split_nil (separator : Char) : split separator [] = [[]] := rfl

@[simp] theorem split_cons_self (separator : Char) (text : List Char) :
    split separator (separator :: text) = [] :: split separator text := by
  simp [split]

theorem split_cons_of_ne {separator c : Char} (ordinary : c ≠ separator) (text : List Char) :
    split separator (c :: text)
      = (c :: (split separator text).headD []) :: (split separator text).tail := by
  simp [split, ordinary]

theorem length_split (separator : Char) (text : List Char) :
    (split separator text).length = text.count separator + 1 := by
  induction text with
  | nil => rfl
  | cons c rest ih =>
    by_cases isSeparator : c = separator
    · subst isSeparator
      simp [ih]
    · rw [split_cons_of_ne isSeparator, List.count_cons_of_ne (by simpa using isSeparator)]
      simp [ih]

theorem split_ne_nil (separator : Char) (text : List Char) : split separator text ≠ [] := by
  intro none
  have length := length_split separator text
  rw [none] at length
  cases length

theorem split_append_separator (separator : Char) (before rest : List Char) :
    split separator (before ++ separator :: rest)
      = split separator before ++ split separator rest := by
  induction before with
  | nil => simp
  | cons c before ih =>
    by_cases isSeparator : c = separator
    · simp [isSeparator, ih]
    · obtain ⟨first, others, stretches⟩ :=
        List.exists_cons_of_ne_nil (split_ne_nil separator before)
      rw [List.cons_append, split_cons_of_ne isSeparator, split_cons_of_ne isSeparator, ih,
        stretches]
      rfl

theorem split_eq_singleton {separator : Char} {text : List Char} (absent : separator ∉ text) :
    split separator text = [text] := by
  induction text with
  | nil => rfl
  | cons c rest ih =>
    rw [List.mem_cons, not_or] at absent
    rw [split_cons_of_ne (Ne.symm absent.1), ih absent.2]
    rfl

/-- Stretches with a separator behind each of them, and nothing behind the last separator. -/
theorem split_terminated {separator : Char} {stretches : List (List Char)}
    (absent : ∀ stretch ∈ stretches, separator ∉ stretch) :
    split separator (stretches.flatMap (· ++ [separator])) = stretches ++ [[]] := by
  induction stretches with
  | nil => rfl
  | cons stretch stretches ih =>
    rw [List.forall_mem_cons] at absent
    rw [List.flatMap_cons, List.append_assoc, List.singleton_append, split_append_separator,
      split_eq_singleton absent.1, ih absent.2]
    rfl

theorem not_mem_of_mem_split {separator : Char} {text stretch : List Char}
    (member : stretch ∈ split separator text) : separator ∉ stretch := by
  induction text generalizing stretch with
  | nil => simp_all
  | cons c rest ih =>
    by_cases isSeparator : c = separator
    · subst isSeparator
      rw [split_cons_self, List.mem_cons] at member
      rcases member with rfl | later
      · exact List.not_mem_nil
      · exact ih later
    · rw [split_cons_of_ne isSeparator] at member
      cases stretches : split separator rest with
      | nil => simp_all [Ne.symm isSeparator]
      | cons first others =>
        rw [stretches] at ih member
        rcases List.mem_cons.mp member with rfl | later
        · simpa [Ne.symm isSeparator] using ih List.mem_cons_self
        · exact ih (List.mem_cons_of_mem first later)

variable {separator : Char} {front front' back back' : List Char}

/-- A text has one cut at its first separator. -/
theorem cut_first_inj (same : front ++ separator :: back = front' ++ separator :: back')
    (absent : separator ∉ front) (absent' : separator ∉ front') :
    front = front' ∧ back = back' := by
  have stretches := congrArg (split separator) same
  rw [split_append_separator, split_append_separator, split_eq_singleton absent,
    split_eq_singleton absent'] at stretches
  obtain rfl : front = front' := (List.cons.inj stretches).1
  exact ⟨rfl, (List.cons.inj (List.append_cancel_left same)).2⟩

/-- A text has one cut at its last separator. -/
theorem cut_last_inj (same : front ++ separator :: back = front' ++ separator :: back')
    (absent : separator ∉ back) (absent' : separator ∉ back') :
    front = front' ∧ back = back' := by
  have backwards : back.reverse ++ separator :: front.reverse
      = back'.reverse ++ separator :: front'.reverse := by
    simpa using congrArg List.reverse same
  have ⟨backs, fronts⟩ := cut_first_inj backwards (by simpa using absent) (by simpa using absent')
  exact ⟨List.reverse_inj.mp fronts, List.reverse_inj.mp backs⟩

end KlangFront.Text
