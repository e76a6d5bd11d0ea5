import LibraryPlayer.Playback.Display
import LibraryPlayer.Proofs.Playback.Widths
import Mathlib.Order.Bounds.Basic

/-!
# How far media has been received

The end of what has been received is found by one pass over the spans, which keeps the furthest end
so far.  What it keeps is always the greatest of zero and the ends that are numbers (`Furthest`),
and that leaves one double only (`Furthest.unique`).  So neither the order of the spans matters, nor
how often one is listed, nor what ends before zero or at no number (`bufferedEnd_congr`), and more
spans never reach less far (`bufferedEnd_le`).

* `bufferedEnd_exact`: the furthest end, and the bar that shows it.
-/

namespace LibraryPlayer

variable {spans xs ys : List Span} {x y : Binary64}

/-! ## The furthest end -/

/-- The values that count: zero, and those of the ends that are numbers. -/
def reached (spans : List Span) : Set Int :=
  {v | v = 0 ∨ ∃ s ∈ spans, s.stop.isNaN = false ∧ s.stop.value = v}

/-- Of no spans only zero counts. -/
theorem reached_nil : reached [] = {0} := by
  ext v
  simp [reached]

/-- In two lists together the values of both count. -/
theorem reached_append (xs ys : List Span) : reached (xs ++ ys) = reached xs ∪ reached ys := by
  ext v
  simp only [reached, List.mem_append, Set.mem_union, Set.mem_ofPred_eq]
  grind

/-- A number without a sign whose value is the greatest that counts. -/
structure Furthest (spans : List Span) (x : Binary64) : Prop where
  number : x.isNaN = false
  unsigned : x.negative = false
  greatest : IsGreatest (reached spans) x.value

/-- There is one such number at most. -/
theorem Furthest.unique (hx : Furthest spans x) (hy : Furthest spans y) : x = y := by
  apply Binary64.eq_of_value_eq hx.unsigned hy.unsigned
  exact hx.greatest.unique hy.greatest

/-- Without spans nothing has been received. -/
theorem furthest_nil : Furthest [] .zero where
  number := Binary64.isNaN_zero
  unsigned := by decide
  greatest := by
    rw [reached_nil, Binary64.value_zero]
    exact isGreatest_singleton

/-- One more span moves the furthest end to its own, if that is a number and lies further. -/
theorem Furthest.concat (h : Furthest spans x) (s : Span) :
    Furthest (spans ++ [s]) (if x.lt s.stop then s.stop else x) := by
  have hzero : (0 : Int) ≤ x.value := h.greatest.2 (.inl rfl)
  split
  next hlt =>
    simp only [Binary64.lt, Bool.and_eq_true, Bool.not_eq_true', decide_eq_true_eq] at hlt
    obtain ⟨⟨-, hnumber⟩, hlt⟩ := hlt
    refine ⟨hnumber, (Binary64.value_pos_iff.1 (hzero.trans_lt hlt)).1, ?_, ?_⟩
    · exact .inr ⟨s, by simp, hnumber, rfl⟩
    · rintro v (rfl | ⟨s', hs', hnumber', rfl⟩)
      · exact (hzero.trans_lt hlt).le
      · rcases List.mem_append.1 hs' with hmem | hmem
        · -- what an earlier span reaches is passed on the way
          exact (h.greatest.2 (.inr ⟨s', hmem, hnumber', rfl⟩)).trans hlt.le
        · rw [List.mem_singleton.1 hmem]
  next hnot =>
    -- an end that is not further, or no number, leaves the greatest value where it was
    refine ⟨h.number, h.unsigned, ?_, ?_⟩
    · rw [reached_append]
      exact .inl h.greatest.1
    · rintro v (rfl | ⟨s', hs', hnumber', rfl⟩)
      · exact hzero
      · rcases List.mem_append.1 hs' with hmem | hmem
        · exact h.greatest.2 (.inr ⟨s', hmem, hnumber', rfl⟩)
        · obtain rfl := List.mem_singleton.1 hmem
          simpa [Binary64.lt, h.number, hnumber'] using hnot

/-- One more span is one more step of the pass; an end that is no number is never further. -/
theorem bufferedEnd_concat (spans : List Span) (s : Span) :
    bufferedEnd (spans ++ [s]) =
      if (bufferedEnd spans).lt s.stop then s.stop else bufferedEnd spans := by
  unfold bufferedEnd
  rw [List.map_append, List.filter_append, List.foldl_append]
  cases hs : s.stop.isNaN with
  | false =>
    have hkept : (([s].map Span.stop).filter fun x => !x.isNaN) = [s.stop] := by simp [hs]
    rw [hkept]
    rfl
  | true => simp [hs, Binary64.lt]

/-- The pass finds the furthest end. -/
theorem furthest_bufferedEnd (spans : List Span) : Furthest spans (bufferedEnd spans) := by
  -- the pass goes on at the end of the list, so the induction takes spans from there
  induction spans using List.reverseRecOn with
  | nil => exact furthest_nil
  | append_singleton spans s ih =>
    rw [bufferedEnd_concat]
    exact ih.concat s

/-! ## Which ends matter -/

/-- What has been received never ends before zero. -/
theorem zero_le_bufferedEnd (spans : List Span) : 0 ≤ (bufferedEnd spans).value :=
  (furthest_bufferedEnd spans).greatest.2 (.inl rfl)

/-- Spans that have every positive end of others reach at least as far as these. -/
theorem bufferedEnd_le
    (h : ∀ e, Binary64.zero.lt e = true → e ∈ xs.map Span.stop → e ∈ ys.map Span.stop) :
    (bufferedEnd xs).value ≤ (bufferedEnd ys).value := by
  rcases (furthest_bufferedEnd xs).greatest.1 with hzero | ⟨s, hs, hnumber, hvalue⟩
  · rw [hzero]
    exact zero_le_bufferedEnd ys
  · rw [← hvalue]
    -- an end that is not positive is passed by zero, which always counts
    by_cases hpos : 0 < s.stop.value
    · have hlt : Binary64.zero.lt s.stop = true := by simp [Binary64.lt, hnumber, hpos]
      obtain ⟨s', hs', hstop⟩ := List.mem_map.1 (h s.stop hlt (List.mem_map_of_mem hs))
      rw [← hstop] at hnumber ⊢
      exact (furthest_bufferedEnd ys).greatest.2 (.inr ⟨s', hs', hnumber, rfl⟩)
    · exact (not_lt.1 hpos).trans (zero_le_bufferedEnd ys)

/-- All that matters is which positive ends there are. -/
theorem bufferedEnd_congr
    (h : ∀ e, Binary64.zero.lt e = true → (e ∈ xs.map Span.stop ↔ e ∈ ys.map Span.stop)) :
    bufferedEnd xs = bufferedEnd ys := by
  apply Binary64.eq_of_value_eq (furthest_bufferedEnd xs).unsigned
    (furthest_bufferedEnd ys).unsigned
  apply le_antisymm
  · exact bufferedEnd_le fun e he => (h e he).1
  · exact bufferedEnd_le fun e he => (h e he).2

/-- A span that is listed already changes nothing, wherever it is listed again. -/
theorem bufferedEnd_repeat {s : Span} (hs : s ∈ xs ++ ys) :
    bufferedEnd (xs ++ s :: ys) = bufferedEnd (xs ++ ys) := by
  apply bufferedEnd_congr
  intro e _
  simp only [List.map_append, List.map_cons, List.mem_append, List.mem_cons]
  constructor
  · rintro (h | rfl | h)
    · exact .inl h
    · simpa only [List.map_append, List.mem_append] using List.mem_map_of_mem hs
    · exact .inr h
  · rintro (h | h)
    · exact .inl h
    · exact .inr (.inr h)

/-- A span whose end is no number or negative changes nothing. -/
theorem bufferedEnd_ignored {s : Span} (hs : s.stop.isNaN = true ∨ s.stop.lt .zero = true) :
    bufferedEnd (xs ++ s :: ys) = bufferedEnd (xs ++ ys) := by
  apply bufferedEnd_congr
  intro e he
  have hne : e ≠ s.stop := by
    -- what ends before zero or at no number is not positive
    rintro rfl
    simp only [Binary64.lt, Bool.and_eq_true, Bool.not_eq_true', decide_eq_true_eq,
      Binary64.value_zero] at he hs
    rcases hs with hs | ⟨-, hs⟩
    · simp [hs] at he
    · omega
  simp [hne]

/-- Two lists together reach as far as the one that reaches further. -/
theorem bufferedEnd_append (xs ys : List Span) :
    (bufferedEnd (xs ++ ys)).value = max (bufferedEnd xs).value (bufferedEnd ys).value := by
  apply (furthest_bufferedEnd (xs ++ ys)).greatest.unique
  rw [reached_append]
  exact (furthest_bufferedEnd xs).greatest.union (furthest_bufferedEnd ys).greatest

/-! ## The bar -/

/-- The transport is off exactly while the duration is unknown or no number. -/
theorem PlayerMode.derive_eq_disabled_iff (duration : Option Binary64) (paused : Bool) :
    PlayerMode.derive duration paused = .disabled ↔
      duration = none ∨ ∃ d, duration = some d ∧ d.isNaN = true := by
  cases duration with
  | none => simp [PlayerMode.derive]
  | some d =>
    cases hd : d.isNaN <;> cases paused <;> simp [PlayerMode.derive, hd]

/-- Of a positive whole, more spans fill no less of the bar. -/
theorem percentage_loaded_le {r r' : Reading} {t : Binary64} (hr : r.duration = some t)
    (hr' : r'.duration = some t) (ht : Binary64.zero.lt t = true) (h : r.buffered ⊆ r'.buffered) :
    percentage (Times.derive r).loaded ≤ percentage (Times.derive r').loaded := by
  have hvalue : (bufferedEnd r.buffered).value ≤ (bufferedEnd r'.buffered).value :=
    bufferedEnd_le fun e _ he => List.map_subset Span.stop h he
  -- both ends are numbers, so doubles compare them as their values
  have hle : (bufferedEnd r.buffered).le (bufferedEnd r'.buffered) = true := by
    simp [Binary64.le, (furthest_bufferedEnd _).number, hvalue]
  simp only [Times.derive, hr, hr']
  apply percentage_le
  exact shareHundredths_mono ht hle

/-- Nothing of a whole that is unknown or no number is filled. -/
theorem loaded_of_undefined {r : Reading}
    (h : r.duration = none ∨ ∃ d, r.duration = some d ∧ d.isNaN = true) :
    (Times.derive r).loaded = "0%" := by
  apply barWidth_of_zero
  apply shareHundredths_of_undefined
  rcases h with hnone | ⟨d, hd, hnan⟩
  · exact .inr (.inl hnone)
  · exact .inr (.inr (.inr ⟨d, hd, .inl hnan⟩))

/-- How far media has been received, and the bar that shows it.  The end is a number, the greatest
of zero and the ends that are numbers, and it is the same double whatever order the spans are in,
also when one is listed again, when one ends before zero or at no number, or when the spans are any
others with the same positive ends; that of two lists together is the greater one of theirs.  So the
bar of a positive whole does not shrink as spans are added; and it is empty while the duration is
unknown or no number, which is exactly while the transport is off. -/
theorem bufferedEnd_exact (xs ys : List Span) (s : Span) (r r' : Reading) (t : Binary64) :
    ((bufferedEnd xs).isNaN = false ∧ IsGreatest (reached xs) (bufferedEnd xs).value) ∧
    ((xs.Perm ys → bufferedEnd xs = bufferedEnd ys) ∧
      (s ∈ xs ++ ys → bufferedEnd (xs ++ s :: ys) = bufferedEnd (xs ++ ys)) ∧
      (s.stop.isNaN = true ∨ s.stop.lt .zero = true →
        bufferedEnd (xs ++ s :: ys) = bufferedEnd (xs ++ ys)) ∧
      ((∀ e, Binary64.zero.lt e = true → (e ∈ xs.map Span.stop ↔ e ∈ ys.map Span.stop)) →
        bufferedEnd xs = bufferedEnd ys)) ∧
    (bufferedEnd (xs ++ ys)).value = max (bufferedEnd xs).value (bufferedEnd ys).value ∧
    (r.duration = some t → r'.duration = some t → Binary64.zero.lt t = true →
      r.buffered ⊆ r'.buffered →
      percentage (Times.derive r).loaded ≤ percentage (Times.derive r').loaded) ∧
    ((Display.derive r).mode = .disabled ↔
      r.duration = none ∨ ∃ d, r.duration = some d ∧ d.isNaN = true) ∧
    ((Display.derive r).mode = .disabled → (Display.derive r).times.loaded = "0%") := by
  have hmode := PlayerMode.derive_eq_disabled_iff r.duration r.paused
  refine ⟨⟨?number, ?greatest⟩, ⟨fun hperm => ?order, bufferedEnd_repeat, bufferedEnd_ignored,
    bufferedEnd_congr⟩, bufferedEnd_append xs ys, percentage_loaded_le, hmode, fun hoff => ?off⟩
  case number => exact (furthest_bufferedEnd xs).number
  case greatest => exact (furthest_bufferedEnd xs).greatest
  case order => exact bufferedEnd_congr fun e _ => (hperm.map Span.stop).mem_iff
  case off => exact loaded_of_undefined (hmode.1 hoff)

/-- Spans out of order, one of them twice, one that ends at no number and one that ends before zero;
what they fill of a hundred seconds, and of a duration that is no number. -/
theorem bufferedEnd_exact_of_stray_spans :
    let near : Span := ⟨.zero, .ofNat 30⟩
    let far : Span := ⟨.ofNat 60, .ofNat 75⟩
    let lost : Span := ⟨.zero, .nan⟩
    let behind : Span := ⟨.zero, (Binary64.ofNat 5).neg⟩
    let before : Reading := { duration := some (.ofNat 100), buffered := [near] }
    let after : Reading := { duration := some (.ofNat 100), buffered := [lost, far, near] }
    let unknown : Reading := { duration := some .nan, buffered := [far] }
    bufferedEnd [near, far] = .ofNat 75 ∧
    bufferedEnd [far, near] = bufferedEnd [near, far] ∧
    bufferedEnd [near, far, far] = bufferedEnd [near, far] ∧
    bufferedEnd [near, lost, far] = bufferedEnd [near, far] ∧
    bufferedEnd [near, behind, far] = bufferedEnd [near, far] ∧
    bufferedEnd [near, far] = bufferedEnd [far, near, near] ∧
    (Times.derive before).loaded = "30%" ∧ (Times.derive after).loaded = "75%" ∧
    percentage (Times.derive before).loaded ≤ percentage (Times.derive after).loaded ∧
    (Display.derive unknown).mode = .disabled ∧
    (Display.derive unknown).times.loaded = "0%" := by
  intro near far lost behind before after unknown
  -- each way of changing the list is the theorem at spans of its own
  obtain ⟨-, ⟨horder, -, -, -⟩, -⟩ :=
    bufferedEnd_exact [far, near] [near, far] near before after .zero
  obtain ⟨-, ⟨-, hrepeat, -, -⟩, -, hloaded, -⟩ :=
    bufferedEnd_exact [near] [far] far before after (.ofNat 100)
  obtain ⟨-, ⟨-, -, hlost, -⟩, -⟩ := bufferedEnd_exact [near] [far] lost before after .zero
  obtain ⟨-, ⟨-, -, hbehind, -⟩, -⟩ := bufferedEnd_exact [near] [far] behind before after .zero
  obtain ⟨-, ⟨-, -, -, hends⟩, -⟩ :=
    bufferedEnd_exact [near, far] [far, near, near] near before after .zero
  obtain ⟨-, -, -, -, hmode, hoff⟩ := bufferedEnd_exact [] [] near unknown unknown .zero
  have hunknown : (Display.derive unknown).mode = .disabled :=
    hmode.2 (.inr ⟨.nan, rfl, by decide +kernel⟩)
  refine ⟨by decide +kernel, horder (.swap ..), hrepeat (by simp), hlost (.inl (by decide +kernel)),
    hbehind (.inr (by decide +kernel)), hends fun e _ => ?_, by decide +kernel, by decide +kernel,
    hloaded rfl rfl (by decide +kernel) (by simp [before, after]), hunknown, hoff hunknown⟩
  simp [or_comm]

end LibraryPlayer
