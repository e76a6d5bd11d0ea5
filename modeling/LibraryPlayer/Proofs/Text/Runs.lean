import Mathlib.Data.List.TakeWhile

/-!
# Longest runs

The elements in front of the first one that fails a test, where it is known which one that is.
-/

namespace LibraryPlayer.Text

variable {α : Type} {p : α → Bool} {xs rest : List α}

/-- What does not start with an element of the run ends it. -/
theorem takeWhile_of_stop (hrest : ∀ x, rest.head? = some x → p x = false) :
    rest.takeWhile p = [] := by
  cases rest with
  | nil => rfl
  | cons x rest => exact List.takeWhile_cons_of_neg (by simp [hrest x rfl])

/-- Nor is anything dropped from it. -/
theorem dropWhile_of_stop (hrest : ∀ x, rest.head? = some x → p x = false) :
    rest.dropWhile p = rest := by
  cases rest with
  | nil => rfl
  | cons x rest => exact List.dropWhile_cons_of_neg (by simp [hrest x rfl])

/-- A run goes on to the first element that fails the test. -/
theorem takeWhile_run (h : ∀ x ∈ xs, p x = true)
    (hrest : ∀ x, rest.head? = some x → p x = false) : (xs ++ rest).takeWhile p = xs := by
  rw [List.takeWhile_append_of_pos h, takeWhile_of_stop hrest, List.append_nil]

/-- What is dropped up to there is the run. -/
theorem dropWhile_run (h : ∀ x ∈ xs, p x = true)
    (hrest : ∀ x, rest.head? = some x → p x = false) : (xs ++ rest).dropWhile p = rest := by
  rw [List.dropWhile_append_of_pos h, dropWhile_of_stop hrest]

end LibraryPlayer.Text
