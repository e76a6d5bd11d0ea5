import LibraryPlayer.Catalog.Client
import LibraryPlayer.Proofs.Text.Runs
import LibraryPlayer.Text.Blank

/-!
# Blank texts

A text is blank when all of its characters are, and this is where the two ways of freeing a text of
blanks meet: a text is blank exactly when trimming leaves nothing (`trim_eq_empty_iff`) and exactly
when it has no words (`words_eq_nil_iff`).  A query that is not blank therefore always has an
address to be sent to (`queryUrl?_isSome_iff`).

`trim_trim`: trimming a second time changes nothing.
-/

namespace LibraryPlayer.Text

/-! ## Trimming -/

/-- Neither the first nor the last character is blank. -/
structure IsTrimmed (cs : List Char) : Prop where
  head : ∀ c, cs.head? = some c → isBlank c = false
  last : ∀ c, cs.getLast? = some c → isBlank c = false

/-- Trimming the end leaves a piece of the front. -/
theorem trimEndChars_prefix (cs : List Char) : trimEndChars cs <+: cs := by
  have h : cs.reverse.dropWhile isBlank <:+ cs.reverse := List.dropWhile_suffix _
  -- the end is trimmed as the front of the reversed characters
  have h' := List.reverse_prefix.2 h
  rwa [List.reverse_reverse] at h'

/-- Nothing blank is left at either end. -/
theorem trimChars_isTrimmed (cs : List Char) : IsTrimmed (trimChars cs) where
  head c hc := by
    -- what is cut off the end cannot bring a blank to the front
    obtain ⟨rest, hrest⟩ := trimEndChars_prefix (cs.dropWhile isBlank)
    have hfirst : (cs.dropWhile isBlank).head? = some c := by
      rw [← hrest, List.head?_append, show (trimEndChars _).head? = some c from hc]
      rfl
    simpa [hfirst] using List.head?_dropWhile_not isBlank cs
  last c hc := by
    rw [trimChars, trimEndChars, List.getLast?_reverse] at hc
    simpa [hc] using List.head?_dropWhile_not isBlank (cs.dropWhile isBlank).reverse

/-- Where nothing blank is at either end there is nothing to trim. -/
theorem IsTrimmed.trimChars_eq {cs : List Char} (h : IsTrimmed cs) : trimChars cs = cs := by
  have hlast : cs.reverse.dropWhile isBlank = cs.reverse :=
    dropWhile_of_stop fun c hc => h.last c (by rwa [List.head?_reverse] at hc)
  rw [trimChars, trimEndChars, dropWhile_of_stop h.head, hlast, List.reverse_reverse]

/-- The characters of a trimmed text are the trimmed characters. -/
@[simp] theorem toList_trim (s : String) : (trim s).toList = trimChars s.toList := by
  simp [trim]

/-- Trimming a second time changes nothing. -/
@[simp] theorem trim_trim (s : String) : trim (trim s) = trim s := by
  rw [trim, toList_trim, (trimChars_isTrimmed s.toList).trimChars_eq]
  rfl

/-! ## Blank texts -/

/-- Trimming leaves no characters exactly when all of them are blank. -/
theorem trimChars_eq_nil_iff (cs : List Char) : trimChars cs = [] ↔ ∀ c ∈ cs, isBlank c = true := by
  rw [trimChars, trimEndChars, List.reverse_eq_nil_iff, List.dropWhile_eq_nil_iff]
  simp only [List.mem_reverse]
  constructor
  · intro h
    -- all that is left after the leading blanks is blank, so nothing is left
    cases hd : cs.dropWhile isBlank with
    | nil => exact List.dropWhile_eq_nil_iff.1 hd
    | cons c rest =>
      have hblank : isBlank c = true := h c (by simp [hd])
      have hkept : isBlank c = false := by simpa [hd] using List.head?_dropWhile_not isBlank cs
      simp [hblank] at hkept
  · intro h c hc
    exact h c ((List.dropWhile_suffix _).mem hc)

/-- Trimming leaves nothing of a text exactly when all of it is blank. -/
theorem trim_eq_empty_iff (s : String) : trim s = "" ↔ ∀ c ∈ s.toList, isBlank c = true := by
  rw [← trimChars_eq_nil_iff, ← toList_trim, String.toList_eq_nil_iff]

/-- Every piece of a split is empty exactly when every character is a separator. -/
private theorem filter_splitOnP_eq_nil_iff (cs : List Char) :
    (cs.splitOnP isBlank).filter (· ≠ []) = [] ↔ ∀ c ∈ cs, isBlank c = true := by
  induction cs with
  | nil => simp
  | cons c cs ih =>
    -- a blank starts a new piece, any other character joins the first piece and fills it
    rw [List.splitOnP_cons_eq_if_modifyHead]
    split
    next hc => simpa [hc] using ih
    next hc =>
      obtain ⟨piece, pieces, hp⟩ := List.exists_cons_of_ne_nil (List.splitOnP_ne_nil isBlank cs)
      simp [hp, hc]

/-- A text has no words exactly when trimming leaves nothing of it. -/
theorem words_eq_nil_iff (s : String) : words s = [] ↔ trim s = "" := by
  rw [trim_eq_empty_iff, words, List.map_eq_nil_iff, filter_splitOnP_eq_nil_iff]

end LibraryPlayer.Text

namespace LibraryPlayer

/-- A query has a route exactly when it is not blank. -/
theorem Query.path?_isSome_iff (query : String) :
    (Query.path? query).isSome ↔ Text.trim query ≠ "" := by
  have h : Query.segments query = [] ↔ Text.trim query = "" := by
    rw [Query.segments, List.map_eq_nil_iff, Text.words_eq_nil_iff]
  rw [Query.path?]
  cases hs : Query.segments query with
  | nil => simp [h.1 hs]
  | cons s ss =>
    have : Text.trim query ≠ "" := fun h' => by simp [h.2 h'] at hs
    simp [this]

/-- A query has an address to be sent to exactly when it is not blank. -/
theorem Client.queryUrl?_isSome_iff (c : Client) (query : String) :
    (c.queryUrl? query).isSome ↔ Text.trim query ≠ "" := by
  rw [Client.queryUrl?, Option.isSome_map, Query.path?_isSome_iff]

end LibraryPlayer
