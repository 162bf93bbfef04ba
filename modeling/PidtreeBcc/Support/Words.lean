import Mathlib.Data.List.Basic

/-!
# Words — the parts of a list between its separators

`words sep s` are the longest stretches of `s` without a separator, without the empty ones.

- separators before or after a text make no difference to its words;
- a stretch without a separator is the first word of what follows it, if that begins with a separator;
- every element that is not a separator is in a word.
-/

namespace Support

namespace Words

variable {α : Type*} {sep : α → Bool} {a : α} {w s t : List α}

def words [DecidableEq α] (sep : α → Bool) (s : List α) : List (List α) :=
  (s.splitOnP sep).filter fun word => word ≠ []

variable [DecidableEq α]

@[simp] theorem words_nil : words sep ([] : List α) = [] := by simp [words]

theorem words_cons_of_sep (ha : sep a = true) (s : List α) : words sep (a :: s) = words sep s := by
  simp [words, List.splitOnP_cons_eq_if_modifyHead, ha]

/-- Two texts with a separator between them. -/
theorem words_append_cons (ha : sep a = true) (s t : List α) :
    words sep (s ++ a :: t) = words sep s ++ words sep t := by
  simp [words, List.splitOnP_append_cons _ _ ha]

theorem words_append_of_seps_left (hw : ∀ c ∈ w, sep c = true) (s : List α) :
    words sep (w ++ s) = words sep s := by
  induction w with
  | nil => rfl
  | cons c w ih =>
      obtain ⟨hc, hrest⟩ := List.forall_mem_cons.1 hw
      rw [List.cons_append, words_cons_of_sep hc, ih hrest]

theorem words_of_seps (hw : ∀ c ∈ w, sep c = true) : words sep w = [] := by
  simpa using words_append_of_seps_left hw []

theorem words_append_of_seps_right (hw : ∀ c ∈ w, sep c = true) (s : List α) :
    words sep (s ++ w) = words sep s := by
  cases w with
  | nil => simp
  | cons c w =>
      obtain ⟨hc, hrest⟩ := List.forall_mem_cons.1 hw
      rw [words_append_cons hc, words_of_seps hrest, List.append_nil]

theorem words_of_word (hne : w ≠ []) (hw : ∀ c ∈ w, sep c = false) : words sep w = [w] := by
  simp [words, List.splitOnP_eq_singleton hw, hne]

/-- A word ends where a separator follows. -/
theorem words_word_append (hne : w ≠ []) (hw : ∀ c ∈ w, sep c = false)
    (hs : ∀ c ∈ s.head?, sep c = true) : words sep (w ++ s) = w :: words sep s := by
  cases s with
  | nil => simp [words_of_word hne hw]
  | cons c s =>
      have hc : sep c = true := hs c (by simp)
      rw [words_append_cons hc, words_of_word hne hw, words_cons_of_sep hc, List.singleton_append]

/-- The first word begins with the first element, if that is not a separator. -/
theorem exists_words_cons (ha : sep a = false) (s : List α) :
    ∃ word rest, words sep (a :: s) = (a :: word) :: rest := by
  obtain ⟨word, rest, hsplit⟩ := List.exists_cons_of_ne_nil (List.splitOnP_ne_nil sep s)
  refine ⟨word, rest.filter fun word => word ≠ [], ?_⟩
  simp [words, List.splitOnP_cons_eq_if_modifyHead, ha, hsplit]

theorem exists_mem_words (ha : sep a = false) (hmem : a ∈ s) : ∃ word ∈ words sep s, a ∈ word := by
  obtain ⟨before, after, rfl⟩ := List.append_of_mem hmem
  clear hmem
  induction before with
  | nil =>
      obtain ⟨word, rest, hwords⟩ := exists_words_cons ha after
      exact ⟨a :: word, by simp [hwords], by simp⟩
  | cons c before ih =>
      obtain ⟨word, hword, ha'⟩ := ih
      rw [List.cons_append]
      by_cases hc : sep c = true
      · exact ⟨word, by rwa [words_cons_of_sep hc], ha'⟩
      · -- The element goes to the front of what was split off before.
        obtain ⟨first, rest, hsplit⟩ :=
          List.exists_cons_of_ne_nil (List.splitOnP_ne_nil sep (before ++ a :: after))
        simp only [words, hsplit, List.splitOnP_cons_eq_if_modifyHead, hc] at hword ⊢
        by_cases hfirst : word = first
        · exact ⟨c :: first, by simp, by simp [← hfirst, ha']⟩
        · have hrest : word ∈ rest ∧ word ≠ [] := by simpa [hfirst] using hword
          exact ⟨word, by simp [hrest], ha'⟩

end Words

end Support
