import LibraryPlayer.Proofs.Playback.Advance
import LibraryPlayer.Proofs.Playback.Marker

/-!
# A replaced list

When a list is replaced, the entry that was started from the old one stays the pointer, and what the
media has to say about it still reaches a controller that shows the new list.  A new list has a
number that nothing handed to the controller before has had (`Call.handed?`), so whatever was
started belongs to another list (`Knows`), and until somebody asks for an entry of the new one, none
of its rows is marked and nothing of it is started (`run_stale`).

* `replaced_list_isolated`: what follows a replacement, for any media and for a deck.
-/

namespace LibraryPlayer

/-- An entry of a set bears its number. -/
theorem ResultSet.set_of_mem {s : ResultSet} {e : Entry} (h : e ∈ s.entries) :
    e.id.set = s.number := by
  obtain ⟨i, hi, rfl⟩ := List.mem_iff_getElem.1 h
  simp [entries]

/-- What is found at an index is an entry of the set. -/
theorem ResultSet.mem_of_get? {s : ResultSet} {i : Nat} {e : Entry} (h : s.get? i = some e) :
    e ∈ s.entries := by
  rw [← getElem?_entries] at h
  exact List.mem_of_getElem? h

/-- What follows an entry is an entry of the set itself. -/
theorem ResultSet.mem_of_following? {s : ResultSet} {e e' : Entry} (h : s.following? e = some e') :
    e' ∈ s.entries := by
  obtain ⟨i, -, hi⟩ := Option.bind_eq_some_iff.1 h
  exact mem_of_get? hi

/-- Nothing follows an entry of another set. -/
theorem ResultSet.following?_eq_none {s : ResultSet} {e : Entry} (h : e.id.set ≠ s.number) :
    s.following? e = none := by
  rw [following?, position?_eq_none h, Option.bind_none]

namespace Controller

/-- The number of the set that a call hands to the controller, as results or with an entry to
play. -/
def Call.handed? {μ : Type} : Call μ → Option Nat
  | .setResults results => some results.number
  | .play e => some e.id.set
  | _ => none

/-- Everything that the controller can start, and what it has started last, is of known sets. -/
structure Knows (c : Controller) (known : Nat → Prop) : Prop where
  results : ∀ e ∈ c.results.entries, known e.id.set
  pointer : ∀ e, c.pointer = some e → known e.id.set

/-- A fresh controller has started nothing and has nothing to start. -/
theorem knows_initial (known : Nat → Prop) : Knows {} known where
  results e he := by simp [ResultSet.entries] at he
  pointer _ he := nomatch he

section

variable {μ : Type} [Media μ] {c : Controller} {known : Nat → Prop}

/-- A call that hands over a known set, or none, brings in nothing unknown. -/
theorem Knows.call (h : c.Knows known) (media : μ) {x : Call μ}
    (hx : ∀ n, x.handed? = some n → known n) : (c.call media x).1.Knows known := by
  cases x with
  | setResults results =>
    refine ⟨fun e he => ?_, h.pointer⟩
    rw [ResultSet.set_of_mem he]
    exact hx _ rfl
  | play e =>
    refine ⟨h.results, fun p hp => ?_⟩
    obtain rfl : e = p := Option.some.inj hp
    exact hx _ rfl
  | takePending => exact ⟨h.results, h.pointer⟩
  | startRejected e =>
    refine ⟨?_, ?_⟩
    · rw [Controller.call, startRejected_results]
      exact h.results
    · rw [Controller.call, startRejected_pointer]
      exact h.pointer
  | event event =>
    refine ⟨?_, ?_⟩
    · rw [Controller.call, handle_results]
      exact h.results
    · cases event with
      | ended =>
        -- the pointer moves on inside the results, of which all entries are known
        intro p hp
        rw [Controller.call, handle, advance_pointer] at hp
        obtain ⟨e, -, he⟩ := Option.bind_eq_some_iff.1 hp
        exact h.results p (ResultSet.mem_of_following? he)
      | _ => exact h.pointer
  | outside change => exact ⟨h.results, h.pointer⟩

/-- Calls that hand over known sets only bring in nothing unknown. -/
theorem Knows.run (h : c.Knows known) (media : μ) (calls : List (Call μ))
    (hcalls : ∀ x ∈ calls, ∀ n, x.handed? = some n → known n) :
    (c.run media calls).1.Knows known := by
  induction calls generalizing c media with
  | nil => exact h
  | cons x calls ih =>
    exact ih (h.call media (hcalls x List.mem_cons_self)) _ fun y hy =>
      hcalls y (List.mem_cons_of_mem _ hy)

/-! ## After a replacement -/

/-- The controller shows a list that the entry it has started last is not of. -/
structure Stale (c : Controller) (set : ResultSet) (last : Option Entry) : Prop where
  results : c.results = set
  pointer : c.pointer = last
  marks : c.MarksPointer
  other : ∀ e, last = some e → e.id.set ≠ set.number

variable {set : ResultSet} {last : Option Entry}

/-- No entry of the list is marked, for the marker is with the pointer. -/
theorem Stale.isMarked (h : c.Stale set last) {e : Entry} (he : e.id.set = set.number) :
    c.isMarked e = false := by
  cases hm : c.marked with
  | none => exact isMarked_of_marked_none e hm
  | some m =>
    have hother : m.id.set ≠ set.number := h.other m (h.pointer.symm.trans (h.marks m hm))
    have hid : m.id ≠ e.id := fun hid => hother (hid ▸ he)
    simpa [Controller.isMarked, hm, Entry.same] using hid

/-- One call that is no command starts nothing, and leaves the pointer where it is unless it tells
of an end: then the pointer is given up. -/
theorem Stale.call (h : c.Stale set last) (media : μ) {x : Call μ}
    (hcommand : x.isCommand = false) :
    (c.call media x).1.Stale set (if x.isEnd then none else last) ∧ c.started? x = none := by
  have hmarks := call_marksPointer h.marks media x
  cases hx : x.isEnd with
  | false =>
    obtain ⟨hresults, hpointer, hstarted⟩ := c.call_of_not_command media hcommand hx
    exact ⟨⟨hresults.trans h.results, hpointer.trans h.pointer, hmarks, h.other⟩, hstarted⟩
  | true =>
    obtain rfl : x = .event .ended := Call.eq_ended_of_isEnd hx
    -- an entry of another list has none after it in this one
    have hnext : c.pointer.bind c.results.following? = none := by
      rw [h.results, h.pointer]
      cases last with
      | none => rfl
      | some e => exact ResultSet.following?_eq_none (h.other e rfl)
    refine ⟨⟨?_, ?_, hmarks, fun _ he => nomatch he⟩, hnext⟩
    · exact (advance_results c media).trans h.results
    · exact (advance_pointer c media).trans hnext

/-- Calls without a command start nothing, and from the first end on there is no pointer. -/
theorem run_stale (h : c.Stale set last) (media : μ) (calls : List (Call μ))
    (hcalls : ∀ x ∈ calls, x.isCommand = false) :
    (c.run media calls).1.Stale set (if calls.any Call.isEnd then none else last)
      ∧ c.starts media calls = [] := by
  induction calls generalizing c media last with
  | nil => exact ⟨h, rfl⟩
  | cons x calls ih =>
    obtain ⟨hstale, hstarted⟩ := h.call media (hcalls x List.mem_cons_self)
    obtain ⟨hstale', hstarts⟩ := ih hstale (c.call media x).2 fun y hy =>
      hcalls y (List.mem_cons_of_mem _ hy)
    rw [run_cons, starts, hstarted, hstarts, List.any_cons]
    refine ⟨?_, rfl⟩
    -- once the pointer is given up, it stays so
    cases hx : x.isEnd with
    | false => simpa [hx] using hstale'
    | true => simpa [hx] using hstale'

/-- Results with a number that is not known make the pointer stale, wherever it is. -/
theorem Knows.stale_setResults (h : c.Knows (· ≠ set.number)) :
    (c.setResults set).Stale set c.pointer where
  results := rfl
  pointer := rfl
  marks := .setResults c set
  other := h.pointer

end

end Controller

/-! ## On a deck -/

namespace Deck

/-- Settling a start leaves the sets alone. -/
@[simp] theorem settle_sets (d : Deck) (pending : PendingStart) (session : Session) :
    (d.settle pending session).2.sets = d.sets := by
  rw [settle]
  split <;> rfl

/-- The set that an action adds, with the next number. -/
def added? (d : Deck) : Action → Option ResultSet
  | .install tracks => some ⟨d.sets.length, tracks⟩
  | _ => none

/-- An action adds one set at most, behind the others. -/
theorem step_sets (d : Deck) (a : Action) : (d.step a).2.sets = d.sets ++ (d.added? a).toList := by
  cases a with
  | install tracks => rfl
  | event event audience =>
    cases audience <;> simp [step, added?, tellTransport, tellController]
  | change c => simp [step, added?]
  | pressPause => simp [step, added?]
  -- whether or not there is something to act on, the sets stay
  | _ =>
    simp only [step, added?, Option.toList_none, List.append_nil]
    split <;> simp

/-- No set is ever removed. -/
theorem length_sets_le (d : Deck) (a : Action) : d.sets.length ≤ (d.step a).2.sets.length := by
  rw [step_sets, List.length_append]
  exact Nat.le_add_right _ _

/-- No run removes a set. -/
theorem length_sets_run_le (d : Deck) (actions : List Action) :
    d.sets.length ≤ (d.run actions).sets.length := by
  induction actions generalizing d with
  | nil => exact Nat.le_refl _
  | cons a actions ih => exact Nat.le_trans (d.length_sets_le a) (ih (d.step a).2)

/-- Each set has its place among the sets as its number. -/
def Numbered (d : Deck) : Prop :=
  ∀ (k : Nat) (set : ResultSet), d.sets[k]? = some set → set.number = k

/-- An action keeps the sets numbered by their places. -/
theorem Numbered.step {d : Deck} (h : d.Numbered) (a : Action) : (d.step a).2.Numbered := by
  intro k set hset
  rw [step_sets, List.getElem?_append] at hset
  split at hset
  · exact h k set hset
  next hk =>
    -- past the old sets there is only the one that is added, if any
    cases a with
    | install tracks =>
      obtain ⟨hlt, rfl⟩ := List.getElem?_eq_some_iff.1 hset
      simp only [added?, Option.toList_some, List.length_singleton] at hlt
      simp only [added?, Option.toList_some, List.getElem_singleton]
      omega
    | _ => simp [added?] at hset

/-- The sets that an action hands to the controller are sets of the deck. -/
theorem Numbered.handed?_lt {d : Deck} (h : d.Numbered) (a : Action) {x : Controller.Call Element}
    (hx : x ∈ d.calls a) {n : Nat} (hn : x.handed? = some n) : n < (d.step a).2.sets.length := by
  cases a with
  | install tracks =>
    obtain rfl : x = .setResults ⟨d.sets.length, tracks⟩ := List.mem_singleton.1 hx
    obtain rfl : d.sets.length = n := Option.some.inj hn
    rw [step_sets]
    simp [added?]
  -- a set that is installed again has been a set of the deck before
  | reinstall number =>
    cases hset : d.sets[number]? with
    | none => simp [calls, hset] at hx
    | some set =>
      obtain rfl : x = .setResults set := by simpa [calls, hset] using hx
      obtain rfl : set.number = n := Option.some.inj hn
      refine Nat.lt_of_lt_of_le ?_ (d.length_sets_le _)
      rw [h number set hset]
      exact (List.getElem?_eq_some_iff.1 hset).1
  | play id =>
    cases hfind : d.find? id with
    | none => simp [calls, hfind] at hx
    | some e =>
      obtain rfl : x = .play e := by simpa [calls, hfind] using hx
      obtain rfl : e.id.set = n := Option.some.inj hn
      obtain ⟨set, hset, he⟩ := Option.bind_eq_some_iff.1 hfind
      refine Nat.lt_of_lt_of_le ?_ (d.length_sets_le _)
      rw [ResultSet.set_of_mem (ResultSet.mem_of_get? he), h id.set set hset]
      exact (List.getElem?_eq_some_iff.1 hset).1
  -- a refusal hands no set over
  | reject id =>
    obtain ⟨e, -, rfl⟩ : ∃ e, d.find? id = some e ∧ x = .startRejected e := by
      simpa [calls, eq_comm] using hx
    exact absurd hn (Option.some_ne_none _).symm
  | event event audience => cases audience <;> simp_all [calls, Controller.Call.handed?]
  | _ => simp_all [calls, Controller.Call.handed?]

/-- The sets that actions hand to the controller are sets of the deck that they lead to. -/
theorem Numbered.handed?_run_lt {d : Deck} (h : d.Numbered) (actions : List Action) :
    ∀ x ∈ d.callsOf actions, ∀ n, x.handed? = some n → n < (d.run actions).sets.length := by
  induction actions generalizing d with
  | nil => exact fun x hx => nomatch hx
  | cons a actions ih =>
    intro x hx n hn
    rw [callsOf, List.mem_append] at hx
    -- a call of the first action names a set of the deck after it, which the rest only adds to
    cases hx with
    | inl hx => exact Nat.lt_of_lt_of_le (h.handed?_lt a hx hn) ((d.step a).2.length_sets_run_le _)
    | inr hx => exact ih (h.step a) x hx n hn

/-- Whatever a deck has started or can start is of one of its sets. -/
theorem knows_run (media : Element) (history : List Action) :
    ((ofElement media).run history).controller.Knows
      (· < ((ofElement media).run history).sets.length) := by
  have hnumbered : (ofElement media).Numbered := fun _ _ hset => nomatch hset
  have hcontroller := congrArg Prod.fst ((ofElement media).run_controller history)
  simp only at hcontroller
  rw [hcontroller]
  exact (Controller.knows_initial _).run media _ (hnumbered.handed?_run_lt history)

end Deck

/-- A list is replaced by one with a number that is new to the controller, and then nobody asks for
other results or for an entry to play.  Whatever else happens, with any media: no entry of the list
is marked, the controller asks its media for nothing, and the pointer is where it was before the
replacement until the controller hears of an end, and nowhere from then on.  On a deck every list
that is installed is a new one in this sense, whatever its tracks say. -/
theorem replaced_list_isolated :
    (∀ {μ : Type} [Media μ] (media : μ) (history : List (Controller.Call μ)) (list : ResultSet)
        (r : Recorded μ) (calls : List (Controller.Call μ)),
      (∀ x ∈ history, x.handed? ≠ some list.number) → (∀ x ∈ calls, x.isCommand = false) →
      let c := (({} : Controller).run media history).1
      let after := (c.setResults list).run r (calls.map Controller.Call.recorded)
      (after.1, after.2.media) = (c.setResults list).run r.media calls
        ∧ after.1.results = list
        ∧ (∀ e ∈ list.entries, after.1.isMarked e = false)
        ∧ after.2.asked = r.asked
        ∧ after.1.pointer = (if calls.any Controller.Call.isEnd then none else c.pointer))
    ∧ ∀ (media : Element) (history : List Deck.Action) (tracks : List Track)
        (actions : List Deck.Action), (∀ a ∈ actions, a.isCommand = false) →
      let d := (Deck.ofElement media).run history
      let list : ResultSet := ⟨d.sets.length, tracks⟩
      let after := d.run (.install tracks :: actions)
      after.controller.results = list
        ∧ (∀ e ∈ list.entries, after.controller.isMarked e = false)
        ∧ after.media.loads = d.media.loads
        ∧ after.media.plays = d.media.plays + actions.countP Deck.Action.isPressPlay
        ∧ after.controller.pointer =
            (if actions.any Deck.Action.isEnd then none else d.controller.pointer) := by
  constructor
  · intro μ _ media history list r calls hfresh hcalls c after
    -- the set is new to the history, so nothing that the controller knows is of it
    have hknows : c.Knows (· ≠ list.number) :=
      (Controller.knows_initial _).run media history fun x hx n hn hnumber =>
        hfresh x hx (hnumber ▸ hn)
    obtain ⟨hstale, hstarts⟩ := Controller.run_stale hknows.stale_setResults r.media calls hcalls
    have hafter : after = _ := Controller.run_recorded (c.setResults list) r calls
    rw [hstarts] at hafter
    rw [hafter]
    refine ⟨rfl, hstale.results, fun e he => hstale.isMarked (ResultSet.set_of_mem he), ?_,
      hstale.pointer⟩
    simp
  · intro media history tracks actions hactions d list after
    have hknows : d.controller.Knows (· ≠ list.number) := by
      obtain ⟨hresults, hpointer⟩ := Deck.knows_run media history
      exact ⟨fun e he => Nat.ne_of_lt (hresults e he), fun e he => Nat.ne_of_lt (hpointer e he)⟩
    -- the calls of the other actions hold no command and tell of as many ends
    obtain ⟨hcalls, hcount⟩ := (d.step (.install tracks)).2.callsOf_isCommand actions hactions
    obtain ⟨hstale, hstarts⟩ := Controller.run_stale hknows.stale_setResults d.media _ hcalls
    have hends : ((d.step (.install tracks)).2.callsOf actions).any Controller.Call.isEnd =
        actions.any Deck.Action.isEnd := by
      rw [Bool.eq_iff_iff, List.any_eq_true, List.any_eq_true, ← List.countP_pos_iff, hcount,
        List.countP_pos_iff]
    have hafter : after.controller.Stale list
        (if actions.any Deck.Action.isEnd then none else d.controller.pointer) := by
      have hcontroller : after.controller = _ :=
        congrArg Prod.fst (d.run_controller (.install tracks :: actions))
      rw [hcontroller, ← hends]
      exact hstale
    have hcounts := d.run_counts (.install tracks :: actions)
    rw [show d.controller.starts d.media (d.callsOf (.install tracks :: actions)) = [] from
      hstarts] at hcounts
    refine ⟨hafter.results, fun e he => hafter.isMarked (ResultSet.set_of_mem he), ?_, ?_,
      hafter.pointer⟩
    · exact hcounts.loads.trans (List.append_nil _)
    · refine hcounts.plays.trans ?_
      simp [Deck.Action.isPressPlay]

/-- The list is replaced while its only track plays, by one with the same track.  Then the media
reports playing, a start of the new entry is refused, and the old one ends. -/
theorem replaced_list_isolated_same_track :
    let track : Track := { id := 7 }
    let c := (({} : Controller).run ({} : Element)
      [.setResults ⟨0, [track]⟩, .play ⟨⟨0, 0⟩, track⟩]).1
    let stale := (c.setResults ⟨1, [track]⟩).run (⟨{}, []⟩ : Recorded Element)
      ([.event .playing, .startRejected ⟨⟨1, 0⟩, track⟩].map Controller.Call.recorded)
    let d := (Deck.ofElement {}).run [.install [track], .play ⟨0, 0⟩]
    let actions : List Deck.Action := [.event .playing .both, .settle .working, .reject ⟨1, 0⟩,
      .event .ended .controller, .event .playing .both, .pressPlay]
    let after := d.run (.install [track] :: actions)
    stale.1.pointer = some ⟨⟨0, 0⟩, track⟩ ∧ stale.1.isMarked ⟨⟨1, 0⟩, track⟩ = false
      ∧ stale.2.asked = []
      ∧ d.controller.pointer = some ⟨⟨0, 0⟩, track⟩ ∧ after.controller.pointer = none
      ∧ after.controller.isMarked ⟨⟨1, 0⟩, track⟩ = false
      ∧ after.media.loads = ["item/7/file"] ∧ after.media.plays = 2 := by
  intro track c stale d actions after
  obtain ⟨-, -, hunmarked, hasked, hkept⟩ := replaced_list_isolated.1 ({} : Element)
    [.setResults ⟨0, [track]⟩, .play ⟨⟨0, 0⟩, track⟩] ⟨1, [track]⟩ ⟨{}, []⟩
    [.event .playing, .startRejected ⟨⟨1, 0⟩, track⟩] (by simp [Controller.Call.handed?])
    (by simp [Controller.Call.isCommand])
  obtain ⟨-, hmarked, hloads, hplays, hpointer⟩ := replaced_list_isolated.2 {}
    [.install [track], .play ⟨0, 0⟩] [track] actions (by simp [actions, Deck.Action.isCommand])
  have hstarted : d.controller.pointer = some ⟨⟨0, 0⟩, track⟩ ∧ d.media.loads = ["item/7/file"]
      ∧ d.media.plays = 1 := by decide +kernel
  have hentry : (⟨⟨1, 0⟩, track⟩ : Entry) ∈ (⟨d.sets.length, [track]⟩ : ResultSet).entries := by
    decide
  -- the same decks stand on both sides, so nothing has to run to compare them
  have hloads' : after.media.loads = d.media.loads := by with_reducible exact hloads
  have hplays' : after.media.plays = d.media.plays + actions.countP Deck.Action.isPressPlay := by
    with_reducible exact hplays
  have hpointer' : after.controller.pointer =
      if actions.any Deck.Action.isEnd then none else d.controller.pointer := by
    with_reducible exact hpointer
  refine ⟨hkept, hunmarked _ (by decide), hasked, hstarted.1, hpointer', ?_,
    hloads'.trans hstarted.2.1, ?_⟩
  · with_reducible exact hmarked _ hentry
  · rw [hplays', hstarted.2.2]
    rfl

end LibraryPlayer
