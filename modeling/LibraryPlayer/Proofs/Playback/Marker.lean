import LibraryPlayer.Proofs.Playback.Calls

/-!
# The meaning of the playing marker

A history is the list of `moments` of a run: each call together with the controller after it.  Two
kinds of moments matter to an entry `p` that the pointer is at: those that say `p` plays
(`Moment.marks`) and those that say it does not (`Moment.clears`).

* `AgreesWith.run`: `p` is marked exactly when the latest moment of the first kind is later than the
  latest of the second.
* `marker_exact`: with that, all that the marker means, after every sequence of calls.
-/

namespace LibraryPlayer

/-- Where in a history the latest moment of a kind stands. -/
def latest? {α : Type} (p : α → Bool) : List α → Option Nat
  | [] => none
  | a :: l =>
    match latest? p l with
    | some i => some (i + 1)
    | none => if p a then some 0 else none

/-- One more moment is the latest of its kinds and leaves the others as they were. -/
theorem latest?_append_singleton {α : Type} (p : α → Bool) (l : List α) (a : α) :
    latest? p (l ++ [a]) = if p a then some l.length else latest? p l := by
  induction l with
  | nil => rfl
  | cons b l ih =>
    rw [List.cons_append, latest?, ih]
    -- the head matters only while no later moment counts, which the appended one decides
    cases p a with
    | true => simp
    | false => simp [latest?]

/-- The place of a latest moment is one of the history. -/
theorem latest?_lt_length {α : Type} {p : α → Bool} {l : List α} {i : Nat}
    (h : latest? p l = some i) : i < l.length := by
  induction l generalizing i with
  | nil => exact nomatch h
  | cons a l ih =>
    rw [latest?] at h
    cases hl : latest? p l with
    | none =>
      simp only [hl] at h
      split at h
      · cases h
        simp
      · exact nomatch h
    | some j =>
      have := ih hl
      simp only [hl, Option.some.injEq] at h
      simp only [List.length_cons]
      omega

namespace Controller

/-- A call, and the controller after it. -/
structure Moment (μ : Type) where
  call : Call μ
  after : Controller

namespace Moment

variable {μ : Type}

/-- Whether a moment says that an entry plays: it is started, or the end of another one moves the
pointer to it, or the media reports that it plays. -/
def marks (p : Entry) (m : Moment μ) : Bool :=
  match m.call with
  | .play e => e.same p
  | .event .ended => m.after.pointer.any (·.same p)
  | .event .playing => true
  | _ => false

/-- Whether a moment says that an entry does not play: the media reports a pause, other results
come in, or a start of it is refused. -/
def clears (p : Entry) (m : Moment μ) : Bool :=
  match m.call with
  | .setResults _ => true
  | .startRejected e => e.same p
  | .event .pause => true
  | _ => false

end Moment

section

variable {μ : Type}

/-- The latest moment that says that an entry plays is later than the latest that says that it does
not. -/
def LatestMarks (p : Entry) (history : List (Moment μ)) : Prop :=
  latest? (Moment.clears p) history < latest? (Moment.marks p) history

/-! ## One more moment -/

/-- A moment that only says that an entry plays is the latest word about it. -/
theorem latestMarks_of_marks {p : Entry} {m : Moment μ} (history : List (Moment μ))
    (hm : m.marks p = true) (hc : m.clears p = false) : LatestMarks p (history ++ [m]) := by
  rw [LatestMarks, latest?_append_singleton, latest?_append_singleton, if_pos hm,
    if_neg (by simp [hc])]
  -- nothing in the history is as late as the moment after it
  cases h : latest? (Moment.clears p) history with
  | none => exact trivial
  | some i => exact latest?_lt_length h

/-- A moment that only says that an entry does not play is the latest word about it. -/
theorem not_latestMarks_of_clears {p : Entry} {m : Moment μ} (history : List (Moment μ))
    (hm : m.marks p = false) (hc : m.clears p = true) : ¬ LatestMarks p (history ++ [m]) := by
  rw [LatestMarks, latest?_append_singleton, latest?_append_singleton, if_pos hc,
    if_neg (by simp [hm])]
  cases h : latest? (Moment.marks p) history with
  -- no earlier moment marks, and nothing is below the least element
  | none => exact id
  | some i =>
    have := latest?_lt_length h
    exact fun hlt : history.length < i => by omega

/-- A moment that says nothing about an entry leaves the latest word about it as it was. -/
theorem latestMarks_append_iff {p : Entry} {m : Moment μ} (history : List (Moment μ))
    (hm : m.marks p = false) (hc : m.clears p = false) :
    LatestMarks p (history ++ [m]) ↔ LatestMarks p history := by
  simp only [LatestMarks, latest?_append_singleton, hm, hc, Bool.false_eq_true, if_false]

/-! ## The marker and the history -/

/-- The marker is on the entry that the pointer is at exactly when the history says so. -/
def AgreesWith (c : Controller) (history : List (Moment μ)) : Prop :=
  ∀ p, c.pointer = some p → (c.isMarked p = true ↔ LatestMarks p history)

/-- The marked entry is marked. -/
theorem isMarked_of_marked {c : Controller} {p : Entry} (h : c.marked = some p) :
    c.isMarked p = true := by
  simp [isMarked, h]

/-- With the marker nowhere no entry is marked. -/
theorem isMarked_of_marked_none {c : Controller} (p : Entry) (h : c.marked = none) :
    c.isMarked p = false := by
  simp [isMarked, h]

/-- A call that puts the marker on the pointer's entry keeps the agreement, when the history says of
that entry that it plays. -/
theorem agreesWith_of_marks {c : Controller} {m : Moment μ} (history : List (Moment μ))
    (hmarked : c.marked = c.pointer)
    (hm : ∀ p, c.pointer = some p → m.marks p = true ∧ m.clears p = false) :
    c.AgreesWith (history ++ [m]) := by
  intro p hp
  obtain ⟨h₁, h₂⟩ := hm p hp
  exact iff_of_true (isMarked_of_marked (hmarked.trans hp)) (latestMarks_of_marks history h₁ h₂)

/-- A call that takes the marker away keeps the agreement, when the history says of the pointer's
entry that it does not play. -/
theorem agreesWith_of_clears {c : Controller} {m : Moment μ} (history : List (Moment μ))
    (hmarked : c.marked = none)
    (hm : ∀ p, c.pointer = some p → m.marks p = false ∧ m.clears p = true) :
    c.AgreesWith (history ++ [m]) := by
  intro p hp
  obtain ⟨h₁, h₂⟩ := hm p hp
  exact iff_of_false (by simp [isMarked_of_marked_none p hmarked])
    (not_latestMarks_of_clears history h₁ h₂)

/-- A call that moves neither pointer nor marker keeps the agreement, when the history says nothing
of the pointer's entry. -/
theorem AgreesWith.of_silent {c c' : Controller} {m : Moment μ} {history : List (Moment μ)}
    (h : c.AgreesWith history) (hpointer : c'.pointer = c.pointer) (hmarked : c'.marked = c.marked)
    (hm : ∀ p, c.pointer = some p → m.marks p = false ∧ m.clears p = false) :
    c'.AgreesWith (history ++ [m]) := by
  intro p hp
  rw [hpointer] at hp
  obtain ⟨h₁, h₂⟩ := hm p hp
  rw [latestMarks_append_iff history h₁ h₂, ← h p hp, isMarked, isMarked, hmarked]

variable [Media μ]

/-- The history of a run. -/
def moments (c : Controller) (media : μ) : List (Call μ) → List (Moment μ)
  | [] => []
  | x :: calls =>
    ⟨x, (c.call media x).1⟩ :: (c.call media x).1.moments (c.call media x).2 calls

/-- One call keeps marker and history in agreement. -/
theorem AgreesWith.call {c : Controller} {history : List (Moment μ)} (h : c.AgreesWith history)
    (media : μ) (x : Call μ) :
    (c.call media x).1.AgreesWith (history ++ [⟨x, (c.call media x).1⟩]) := by
  cases x with
  | setResults results => exact agreesWith_of_clears history rfl fun _ _ => ⟨rfl, rfl⟩
  | play e =>
    refine agreesWith_of_marks history rfl fun p hp => ⟨?_, rfl⟩
    have : e = p := Option.some.inj hp
    simp [Moment.marks, this]
  | takePending => exact h.of_silent rfl rfl fun _ _ => ⟨rfl, rfl⟩
  | startRejected e =>
    -- the refused start either is one of the pointer's entry or changes nothing
    cases hp : c.pointer.any (·.same e) with
    | false =>
      simp only [Controller.call, startRejected_of_not_pointer hp]
      refine h.of_silent rfl rfl fun p hpointer => ⟨rfl, ?_⟩
      rw [hpointer] at hp
      exact (Entry.same_comm e p).trans hp
    | true =>
      refine agreesWith_of_clears history ?_ fun p hpointer => ⟨rfl, ?_⟩
      · simp [Controller.call, startRejected_marked, hp]
      · rw [Controller.call, startRejected_pointer] at hpointer
        rw [hpointer] at hp
        exact (Entry.same_comm e p).trans hp
  | event event =>
    cases event with
    | playing =>
      -- with a pointer, which agreement is only about, the event always moves the marker to it
      intro p hp
      refine agreesWith_of_marks history ?_ (fun _ _ => ⟨rfl, rfl⟩) p hp
      have hc : c.pointer = some p := hp
      simp [Controller.call, handle, hc]
    | pause =>
      intro p hp
      refine agreesWith_of_clears history ?_ (fun _ _ => ⟨rfl, rfl⟩) p hp
      have hc : c.pointer = some p := hp
      simp [Controller.call, handle, hc]
    | ended =>
      -- either the pointer moves to an entry that is marked at once, or there is no pointer left
      refine agreesWith_of_marks history ?_ fun p hp => ⟨?_, rfl⟩
      · simp [Controller.call, handle]
      · simp [Moment.marks, hp]
    | durationChange => exact h.of_silent rfl rfl fun _ _ => ⟨rfl, rfl⟩
    | timeUpdate => exact h.of_silent rfl rfl fun _ _ => ⟨rfl, rfl⟩
    | progress => exact h.of_silent rfl rfl fun _ _ => ⟨rfl, rfl⟩
  | outside change => exact h.of_silent rfl rfl fun _ _ => ⟨rfl, rfl⟩

/-- Any calls keep marker and history in agreement. -/
theorem AgreesWith.run {c : Controller} {history : List (Moment μ)} (h : c.AgreesWith history)
    (media : μ) (calls : List (Call μ)) :
    (c.run media calls).1.AgreesWith (history ++ c.moments media calls) := by
  induction calls generalizing c media history with
  | nil => simpa [moments] using h
  | cons x calls ih => simpa [moments] using ih (h.call media x) (c.call media x).2

/-- What the marker means after any sequence of calls to a fresh controller: it is on one entry at
most, and that is the one the pointer is at; it is on the pointer's entry exactly when the latest
word about that entry is that it plays; and the refusal of another entry's start does not move
it. -/
theorem marker_exact (media : μ) (calls : List (Call μ)) :
    let c := (({} : Controller).run media calls).1
    let history := ({} : Controller).moments media calls
    (∀ a b, c.isMarked a = true → c.isMarked b = true → a.same b = true)
      ∧ (∀ e, c.isMarked e = true → ∃ p, c.pointer = some p ∧ p.same e = true)
      ∧ (∀ p, c.pointer = some p →
          (c.isMarked p = true ↔
            latest? (Moment.clears p) history < latest? (Moment.marks p) history))
      ∧ (c.pointer = none → ∀ e, c.isMarked e = false)
      ∧ (∀ e, (∀ p, c.pointer = some p → p.same e = false) →
          (c.startRejected e).marked = c.marked) := by
  intro c history
  have hmarks : c.MarksPointer := run_marksPointer marksPointer_initial media calls
  have hagree : c.AgreesWith history := by
    have h : ({} : Controller).AgreesWith ([] : List (Moment μ)) := fun _ hp => nomatch hp
    exact h.run media calls
  have hpointer : ∀ e, c.isMarked e = true → ∃ p, c.pointer = some p ∧ p.same e = true := by
    intro e he
    obtain ⟨p, hp, hsame⟩ := (Option.any_eq_true _ _).1 he
    exact ⟨p, hmarks p hp, hsame⟩
  refine ⟨?_, hpointer, hagree, ?_, ?_⟩
  -- both are the entry that the pointer is at
  · intro a b ha hb
    obtain ⟨p, hp, hpa⟩ := hpointer a ha
    obtain ⟨q, hq, hqb⟩ := hpointer b hb
    rw [hp] at hq
    cases hq
    rw [Entry.same_iff] at hpa hqb ⊢
    exact hpa.symm.trans hqb
  -- a marked entry would be the one that the pointer is at
  · intro hnone e
    cases he : c.isMarked e with
    | false => rfl
    | true =>
      obtain ⟨p, hp, -⟩ := hpointer e he
      rw [hnone] at hp
      exact nomatch hp
  · intro e he
    rw [startRejected_of_not_pointer]
    cases hp : c.pointer with
    | none => rfl
    | some p => exact he p hp

end

/-- Of two entries of one track the first is started, pauses and ends: the pointer and the marker
are at the second one, and a late refusal of the first start leaves them there. -/
theorem marker_exact_of_advance :
    let first : Entry := ⟨⟨0, 0⟩, { id := 7 }⟩
    let second : Entry := ⟨⟨0, 1⟩, { id := 7 }⟩
    let calls : List (Call Element) :=
      [.setResults ⟨0, [{ id := 7 }, { id := 7 }]⟩, .play first, .event .pause, .event .ended]
    let c := (({} : Controller).run ({} : Element) calls).1
    c.pointer = some second ∧ c.isMarked second = true ∧ c.isMarked first = false ∧
      (c.startRejected first).marked = c.marked := by
  intro first second calls c
  obtain ⟨hone, -, hmarked, -, hrejected⟩ := marker_exact ({} : Element) calls
  have hpointer : c.pointer = some second := by decide
  have hother : second.same first = false := by decide
  -- the pause is the third moment, and the end that starts the second entry is the fourth
  have hlatest : (some 2 : Option Nat) < some 3 := Option.some_lt_some.2 (by decide)
  have hsecond : c.isMarked second = true := (hmarked second hpointer).2 hlatest
  refine ⟨hpointer, hsecond, ?_, ?_⟩
  · rw [Bool.eq_false_iff]
    intro hfirst
    exact absurd (hone second first hsecond hfirst) (by simp [hother])
  · apply hrejected
    intro p hp
    rw [hpointer] at hp
    exact Option.some.inj hp ▸ hother

end Controller

end LibraryPlayer
