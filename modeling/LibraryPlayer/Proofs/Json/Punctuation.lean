import LibraryPlayer.Proofs.Json.Grammar
import Mathlib.Data.List.TakeWhile

/-!
# Reading punctuation

Each reader of punctuation takes what the grammar has in its place, and takes nothing else:
`skipSpace` the blanks, `next` what stands in front of an item or the closing bracket, `colon` and
`endList` their mark with blanks before it.
-/

namespace LibraryPlayer.Json

/-! ## Readings in sequence -/

section
variable {α β : Type}

/-- A reading that succeeds hands over to the next one. -/
@[simp] theorem ok_bind (a : α) (f : α → Except Fault β) : (Except.ok a >>= f) = f a := rfl

/-- A reading that fails is the last one. -/
@[simp] theorem error_bind (e : Fault) (f : α → Except Fault β) :
    (Except.error e >>= f) = .error e := rfl

/-- Two readings succeed if the first does, and then the second on what it leaves. -/
theorem bind_eq_ok {x : Except Fault α} {f : α → Except Fault β} {b : β} :
    x >>= f = .ok b ↔ ∃ a, x = .ok a ∧ f a = .ok b := by
  cases x <;> simp

/-- A reading whose result is changed succeeds if it does. -/
theorem map_eq_ok {x : Except Fault α} {f : α → β} {b : β} :
    x.map f = .ok b ↔ ∃ a, x = .ok a ∧ f a = b := by
  cases x <;> simp [Except.map]

end

/-! ## Blanks -/

/-- No octets are blanks. -/
theorem IsBlank.nil : IsBlank [] := fun _ h => nomatch h

/-- Blanks after blanks are blanks. -/
theorem IsBlank.append {g g' : Bytes} (hg : IsBlank g) (hg' : IsBlank g') : IsBlank (g ++ g') :=
  fun b hb => (List.mem_append.1 hb).elim (hg b) (hg' b)

/-- Blanks in front are skipped. -/
theorem skipSpace_append {g : Bytes} (hg : IsBlank g) (s : Bytes) :
    skipSpace (g ++ s) = skipSpace s :=
  List.dropWhile_append_of_pos hg

/-- Nothing is skipped in front of anything else. -/
theorem skipSpace_cons {b : UInt8} (hb : isSpace b = false) (s : Bytes) :
    skipSpace (b :: s) = b :: s :=
  List.dropWhile_cons_of_neg (by simp [hb])

/-- Of blanks nothing is left. -/
theorem skipSpace_blank {g : Bytes} (hg : IsBlank g) : skipSpace g = [] :=
  List.dropWhile_eq_nil_iff.2 hg

/-- What has been skipped is blanks. -/
theorem exists_skipSpace (s : Bytes) : ∃ g, IsBlank g ∧ s = g ++ skipSpace s :=
  ⟨s.takeWhile isSpace, fun _ hb => List.mem_takeWhile_imp hb,
    List.takeWhile_append_dropWhile.symm⟩

/-- An octet that is left after the blanks is none itself. -/
theorem eq_of_skipSpace {s t : Bytes} {b : UInt8} (h : skipSpace s = b :: t) :
    ∃ g, IsBlank g ∧ s = g ++ b :: t ∧ isSpace b = false := by
  obtain ⟨g, hg, hs⟩ := exists_skipSpace s
  have hb := List.head?_dropWhile_not isSpace s
  rw [show s.dropWhile isSpace = b :: t from h] at hb
  exact ⟨g, hg, h ▸ hs, by simpa using hb⟩

/-- Nothing is left exactly of blanks. -/
theorem isEmpty_skipSpace {s : Bytes} : (skipSpace s).isEmpty = true ↔ IsBlank s := by
  rw [List.isEmpty_iff, skipSpace, List.dropWhile_eq_nil_iff]
  exact Iff.rfl

/-- A text may end in blanks. -/
theorem finish_of_blank {s : Bytes} (h : IsBlank s) : finish s = .ok () :=
  if_pos (isEmpty_skipSpace.2 h)

/-- Anything else after its value is a fault. -/
theorem finish_of_not_blank {s : Bytes} (h : ¬IsBlank s) : finish s = .error .malformed :=
  if_neg (mt isEmpty_skipSpace.1 h)

/-- So a text ends well exactly if nothing but blanks follow its value. -/
theorem finish_eq_ok {s : Bytes} : finish s = .ok () ↔ IsBlank s := by
  refine ⟨fun h => ?_, finish_of_blank⟩
  by_contra hblank
  rw [finish_of_not_blank hblank] at h
  exact nomatch h

/-- Blanks in front make no difference to that. -/
theorem finish_append {g : Bytes} (hg : IsBlank g) (s : Bytes) : finish (g ++ s) = finish s := by
  rw [finish, finish, skipSpace_append hg]

/-- A text that does not end in a blank has no blanks at its end. -/
theorem IsBlank.eq_nil_of_last {g s : Bytes} (hg : IsBlank g)
    (hlast : ∀ b ∈ (s ++ g).getLast?, isSpace b = false) : g = [] := by
  by_contra hne
  -- the last of the blanks would be the last octet of all
  have hb := hg _ (List.getLast_mem hne)
  rw [List.getLast?_append, List.getLast?_eq_some_getLast hne, Option.some_or] at hlast
  rw [hlast _ rfl] at hb
  exact nomatch hb

/-! ## Fixed octets -/

/-- Fixed octets are read exactly where they are. -/
theorem expect_eq_ok {w s t : Bytes} : expect w s = .ok t ↔ s = w ++ t := by
  -- octet by octet, on those that are expected
  induction w generalizing s with
  | nil => simp [expect]
  | cons b w ih =>
    cases s with
    | nil => simp [expect]
    | cons c s =>
      rw [expect]
      split
      next h => simp [ih, h]
      next h => simp [h]

/-- The literals that the readers know are those of the grammar. -/
theorem spells_of_literalRest? {b : UInt8} {rest : Bytes} (h : literalRest? b = some rest) :
    ∃ t, Spells (b :: rest) (.value t) := by
  -- one case for each letter that a literal starts with
  unfold literalRest? at h
  split at h
  next hb =>
    obtain rfl := Option.some.inj h
    exact ⟨.null, hb ▸ Spells.nullLiteral⟩
  split at h
  next hb =>
    obtain rfl := Option.some.inj h
    exact ⟨.bool true, hb ▸ Spells.trueLiteral⟩
  split at h
  next hb =>
    obtain rfl := Option.some.inj h
    exact ⟨.bool false, hb ▸ Spells.falseLiteral⟩
  exact nomatch h

/-- A colon is read with the blanks before it. -/
theorem colon_of_blank {g : Bytes} (hg : IsBlank g) (s : Bytes) :
    colon (g ++ colonMark :: s) = .ok s := by
  rw [colon, skipSpace_append hg, skipSpace_cons (by decide)]
  exact if_pos rfl

/-- Nothing else is read as a colon. -/
theorem eq_of_colon {s t : Bytes} (h : colon s = .ok t) :
    ∃ g, IsBlank g ∧ s = g ++ colonMark :: t := by
  unfold colon at h
  split at h
  · exact nomatch h
  next b u hskip =>
    split at h
    · obtain ⟨g, hg, hs, -⟩ := eq_of_skipSpace hskip
      obtain rfl : u = t := Except.ok.inj h
      exact ⟨g, hg, by simp_all⟩
    · exact nomatch h

/-- A closing bracket is read with the blanks before it. -/
theorem endList_of_blank {g : Bytes} (hg : IsBlank g) (s : Bytes) :
    endList (g ++ closeList :: s) = .ok s := by
  rw [endList, skipSpace_append hg, skipSpace_cons (by decide)]
  exact if_pos rfl

/-- Nothing else is read as the end of a list. -/
theorem eq_of_endList {s t : Bytes} (h : endList s = .ok t) :
    ∃ g, IsBlank g ∧ s = g ++ closeList :: t := by
  unfold endList at h
  split at h
  · exact nomatch h
  next b u hskip =>
    split at h
    · obtain ⟨g, hg, hs, -⟩ := eq_of_skipSpace hskip
      obtain rfl : u = t := Except.ok.inj h
      exact ⟨g, hg, by simp_all⟩
    · exact nomatch h

/-! ## Items of lists and members of objects -/

/-- The two marks that close a list or an object. -/
def IsClosing (closing : UInt8) : Prop := closing = closeList ∨ closing = closeObject

/-- A comma closes nothing. -/
theorem IsClosing.ne_comma {closing : UInt8} (h : IsClosing closing) : comma ≠ closing := by
  obtain rfl | rfl := h <;> decide

/-- A closing mark is no blank. -/
theorem IsClosing.not_space {closing : UInt8} (h : IsClosing closing) :
    isSpace closing = false := by
  obtain rfl | rfl := h <;> decide

/-- The closing mark is found behind blanks. -/
theorem next_close {closing : UInt8} (hclosing : IsClosing closing) {g : Bytes} (hg : IsBlank g)
    (first : Bool) (s : Bytes) : next closing first (g ++ closing :: s) = .ok (.close s) := by
  rw [next, skipSpace_append hg, skipSpace_cons hclosing.not_space]
  exact if_pos rfl

/-- An item is found behind what stands in front of it. -/
theorem next_item {closing : UInt8} (hclosing : IsClosing closing) {first : Bool} {lead : Bytes}
    (hlead : Lead first lead) {b : UInt8} (hb : isSpace b = false) (hne : b ≠ closing) (s : Bytes) :
    next closing first (lead ++ b :: s) = .ok (.item (b :: s)) := by
  cases hlead with
  | first hg => simp [next, skipSpace_append hg, skipSpace_cons hb, hne]
  | later hg hg' =>
    -- the comma is no closing mark, and the blanks after it are skipped as well
    rw [List.append_assoc, List.cons_append, next, skipSpace_append hg,
      skipSpace_cons (by decide)]
    simp [hclosing.ne_comma, skipSpace_append hg', skipSpace_cons hb, hne]

/-- Only the closing mark, behind blanks, is found as the end. -/
theorem eq_of_next_close {closing : UInt8} {first : Bool} {s t : Bytes}
    (h : next closing first s = .ok (.close t)) : ∃ g, IsBlank g ∧ s = g ++ closing :: t := by
  unfold next at h
  split at h
  · exact nomatch h
  next b u hskip =>
    obtain ⟨g, hg, hs, -⟩ := eq_of_skipSpace hskip
    split at h
    next hb =>
      cases h
      exact ⟨g, hg, hb ▸ hs⟩
    · repeat' split at h
      all_goals exact nomatch h

/-- What is found as an item has the right octets in front of it, starts with no blank, and is not
the closing mark. -/
theorem eq_of_next_item {closing : UInt8} {first : Bool} {s t : Bytes}
    (h : next closing first s = .ok (.item t)) :
    ∃ lead b u, Lead first lead ∧ s = lead ++ t ∧ t = b :: u ∧ isSpace b = false ∧ b ≠ closing := by
  unfold next at h
  split at h
  · exact nomatch h
  next b u hskip =>
    obtain ⟨g, hg, hs, hb⟩ := eq_of_skipSpace hskip
    split at h
    · exact nomatch h
    next hne =>
      split at h
      -- the first item needs no comma, any other has one in front
      next hfirst =>
        cases h
        exact ⟨g, b, u, hfirst ▸ .first hg, hs, rfl, hb, hne⟩
      next hfirst =>
        split at h
        next hcomma =>
          split at h
          · exact nomatch h
          next c v hskip' =>
            obtain ⟨g', hg', hu, hc⟩ := eq_of_skipSpace hskip'
            split at h
            · exact nomatch h
            next hne' =>
              cases h
              refine ⟨g ++ comma :: g', c, v, ?_, ?_, rfl, hc, hne'⟩
              · rw [Bool.not_eq_true] at hfirst
                exact hfirst ▸ .later hg hg'
              · rw [hs, hu, hcomma, List.append_assoc, List.cons_append]
        · exact nomatch h

/-- The closing bracket of an object is found behind blanks. -/
theorem nextMember_close {g : Bytes} (hg : IsBlank g) (first : Bool) (s : Bytes) :
    nextMember first (g ++ closeObject :: s) = .ok (.close s) := by
  rw [nextMember, next_close (.inr rfl) hg]
  rfl

/-- A member is found by the quotation mark of its key. -/
theorem nextMember_item {first : Bool} {lead : Bytes} (hlead : Lead first lead) (s : Bytes) :
    nextMember first (lead ++ quote :: s) = .ok (.item s) := by
  rw [nextMember, next_item (.inr rfl) hlead (by decide) (by decide)]
  rfl

/-- Only the closing bracket, behind blanks, is found as the end of an object. -/
theorem eq_of_nextMember_close {first : Bool} {s t : Bytes}
    (h : nextMember first s = .ok (.close t)) : ∃ g, IsBlank g ∧ s = g ++ closeObject :: t := by
  obtain ⟨n, hn, h⟩ := bind_eq_ok.1 h
  split at h
  · cases h
    exact eq_of_next_close hn
  · exact nomatch h
  · split at h <;> exact nomatch h

/-- What is found as a member starts with a quotation mark, which is taken off. -/
theorem eq_of_nextMember_item {first : Bool} {s t : Bytes}
    (h : nextMember first s = .ok (.item t)) :
    ∃ lead, Lead first lead ∧ s = lead ++ quote :: t := by
  obtain ⟨n, hn, h⟩ := bind_eq_ok.1 h
  split at h
  · exact nomatch h
  · exact nomatch h
  -- the item that has been found is a member if it starts with a quotation mark
  next b u =>
    obtain ⟨lead, -, -, hlead, hs, -⟩ := eq_of_next_item hn
    split at h
    next hb =>
      cases h
      exact ⟨lead, hlead, hb ▸ hs⟩
    · exact nomatch h

end LibraryPlayer.Json
