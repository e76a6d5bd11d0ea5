import LibraryPlayer.Proofs.Playback.DeckCalls

/-!
# Walking the list

Once an entry of a list plays and nobody asks for anything else, the controller walks the list from
there on, one entry for each end that it hears of, and stops after the last one.  Nothing else that
happens in between has a part in it.

* `run_atIndex`: where the walk stands is the index of its first entry plus the number of ends.
* `walks_list`: what a walk loads and starts, for any media and for a deck.
-/

namespace LibraryPlayer

namespace Controller

/-- Whether a call gives the controller something new to do: other results, or an entry to
play. -/
def Call.isCommand {μ : Type} : Call μ → Bool
  | .setResults _ => true
  | .play _ => true
  | _ => false

/-- Whether a call tells the controller of an end. -/
def Call.isEnd {μ : Type} : Call μ → Bool
  | .event .ended => true
  | _ => false

/-- The only call that tells of an end is the media's event of that name. -/
theorem Call.eq_ended_of_isEnd {μ : Type} {x : Call μ} (h : x.isEnd = true) :
    x = .event .ended := by
  cases x with
  | event event =>
    cases event with
    | ended => rfl
    | _ => simp [Call.isEnd] at h
  | _ => simp [Call.isEnd] at h

/-- The pointer is at an index of a set, which is the list; past the end of the set it is at
nothing. -/
structure AtIndex (c : Controller) (set : ResultSet) (i : Nat) : Prop where
  results : c.results = set
  pointer : c.pointer = set.get? i

section

variable {μ : Type} [Media μ] {c : Controller} {set : ResultSet} {i : Nat}

/-- An end moves the walk on by one entry, which it starts if there is one. -/
theorem AtIndex.ended (h : c.AtIndex set i) (media : μ) :
    (c.call media (.event .ended)).1.AtIndex set (i + 1)
      ∧ c.started? (.event .ended : Call μ) = set.get? (i + 1) := by
  -- what follows the entry at an index is the entry at the next
  have hnext : c.pointer.bind c.results.following? = set.get? (i + 1) := by
    rw [h.pointer, h.results, ResultSet.bind_following?_get?]
  refine ⟨⟨?_, ?_⟩, hnext⟩
  · exact (advance_results c media).trans h.results
  · exact (advance_pointer c media).trans hnext

/-- A call that is neither a command nor an end leaves list and pointer alone and starts nothing. -/
theorem call_of_not_command (c : Controller) (media : μ) {x : Call μ}
    (hcommand : x.isCommand = false) (hend : x.isEnd = false) :
    (c.call media x).1.results = c.results ∧ (c.call media x).1.pointer = c.pointer
      ∧ c.started? x = none := by
  cases x with
  | setResults results => exact nomatch hcommand
  | play e => exact nomatch hcommand
  | takePending => exact ⟨rfl, rfl, rfl⟩
  | startRejected e => exact ⟨startRejected_results c e, startRejected_pointer c e, rfl⟩
  | event event =>
    cases event with
    | ended => exact nomatch hend
    | _ => exact ⟨rfl, rfl, rfl⟩
  | outside change => exact ⟨rfl, rfl, rfl⟩

/-- Everything else leaves the walk where it is and starts nothing. -/
theorem AtIndex.call (h : c.AtIndex set i) (media : μ) {x : Call μ}
    (hcommand : x.isCommand = false) (hend : x.isEnd = false) :
    (c.call media x).1.AtIndex set i ∧ c.started? x = none := by
  obtain ⟨hresults, hpointer, hstarted⟩ := c.call_of_not_command media hcommand hend
  exact ⟨⟨hresults.trans h.results, hpointer.trans h.pointer⟩, hstarted⟩

/-- Where a walk stands after calls without a command, and what it has started: as many entries as
there were ends, in order, as long as there are any. -/
theorem run_atIndex (h : c.AtIndex set i) (media : μ) (calls : List (Call μ))
    (hcalls : ∀ x ∈ calls, x.isCommand = false) :
    (c.run media calls).1.AtIndex set (i + calls.countP Call.isEnd)
      ∧ c.starts media calls = (set.entries.drop (i + 1)).take (calls.countP Call.isEnd) := by
  -- the index goes along: it is the place of the controller that the rest of the calls start from
  induction calls generalizing c media i with
  | nil => exact ⟨h, by simp [starts]⟩
  | cons x calls ih =>
    have hrest : ∀ y ∈ calls, y.isCommand = false :=
      fun y hy => hcalls y (List.mem_cons_of_mem _ hy)
    rw [run_cons, starts]
    cases hx : x.isEnd with
    | false =>
      obtain ⟨hat, hstart⟩ := h.call media (hcalls x List.mem_cons_self) hx
      rw [hstart, List.countP_cons_of_neg (by simp [hx])]
      exact ih hat _ hrest
    | true =>
      -- an end takes the next entry off the list that the rest of the calls would start from
      obtain rfl : x = .event .ended := Call.eq_ended_of_isEnd hx
      obtain ⟨hat, hstart⟩ := h.ended media
      obtain ⟨hat', hstarts⟩ := ih hat _ hrest
      rw [hstart, hstarts, List.countP_cons_of_pos rfl, ResultSet.take_drop_entries]
      refine ⟨?_, rfl⟩
      rwa [show i + (calls.countP Call.isEnd + 1) = i + 1 + calls.countP Call.isEnd by omega]

/-- A walk begins with new results and an entry of them. -/
theorem run_setResults_play (c : Controller) (media : μ) {e : Entry} (he : set.get? i = some e)
    (calls : List (Call μ)) (hcalls : ∀ x ∈ calls, x.isCommand = false) :
    (c.run media (.setResults set :: .play e :: calls)).1.AtIndex set (i + calls.countP Call.isEnd)
      ∧ c.starts media (.setResults set :: .play e :: calls) =
          (set.entries.drop i).take (calls.countP Call.isEnd + 1) := by
  have hat : ((c.setResults set).play e media).1.AtIndex set i := ⟨rfl, he.symm⟩
  obtain ⟨hat', hstarts⟩ := run_atIndex hat ((c.setResults set).play e media).2 calls hcalls
  refine ⟨hat', ?_⟩
  rw [ResultSet.take_drop_entries, he, ← hstarts]
  rfl

end

end Controller

namespace Deck

/-- Whether an action gives the controller something new to do. -/
def Action.isCommand : Action → Bool
  | .install _ => true
  | .reinstall _ => true
  | .play _ => true
  | _ => false

/-- Whether an action tells the controller of an end. -/
def Action.isEnd : Action → Bool
  | .event .ended .controller => true
  | .event .ended .both => true
  | _ => false

/-- Whether an action is the transport's request to go on playing. -/
def Action.isPressPlay : Action → Bool
  | .pressPlay => true
  | _ => false

/-- Whether an action is the transport's request to pause. -/
def Action.isPressPause : Action → Bool
  | .pressPause => true
  | _ => false

/-- The calls of an action hold a command only if the action is one, and tell of an end exactly if
it does. -/
theorem calls_isCommand (d : Deck) {a : Action} (ha : a.isCommand = false) :
    (∀ x ∈ d.calls a, x.isCommand = false)
      ∧ (d.calls a).countP Controller.Call.isEnd = [a].countP Action.isEnd := by
  cases a with
  | install tracks => exact nomatch ha
  | reinstall number => exact nomatch ha
  | play id => exact nomatch ha
  -- a start that the deck does not know comes to no call at all
  | reject id =>
    cases h : d.find? id <;> simp [calls, h, Controller.Call.isCommand, Controller.Call.isEnd,
      Action.isEnd]
  -- what only the transport hears is no call of the controller
  | event event audience =>
    cases audience <;> cases event <;> simp [calls, Controller.Call.isCommand,
      Controller.Call.isEnd, Action.isEnd]
  | _ => simp [calls, Controller.Call.isCommand, Controller.Call.isEnd, Action.isEnd]

/-- The calls of actions without a command hold none, and tell of an end as often as the actions do.
-/
theorem callsOf_isCommand (d : Deck) (actions : List Action)
    (hactions : ∀ a ∈ actions, a.isCommand = false) :
    (∀ x ∈ d.callsOf actions, x.isCommand = false)
      ∧ (d.callsOf actions).countP Controller.Call.isEnd = actions.countP Action.isEnd := by
  induction actions generalizing d with
  | nil => exact ⟨fun _ h => (by simp [callsOf] at h), rfl⟩
  | cons a actions ih =>
    obtain ⟨hx, hk⟩ := d.calls_isCommand (hactions a List.mem_cons_self)
    obtain ⟨hxs, hks⟩ := ih (d.step a).2 fun b hb => hactions b (List.mem_cons_of_mem _ hb)
    constructor
    · intro x hmem
      rw [callsOf, List.mem_append] at hmem
      exact hmem.elim (hx x) (hxs x)
    · rw [callsOf, List.countP_append, hk, hks, ← List.countP_append]
      rfl

/-- An action loads and plays what its calls start; the transport's two buttons ask for one more
play and for one pause. -/
theorem step_counts (d : Deck) (a : Action) :
    d.media.Grows (d.step a).2.media
      (Controller.locations (d.controller.starts d.media (d.calls a)))
      ((d.controller.starts d.media (d.calls a)).length + [a].countP Action.isPressPlay)
      ([a].countP Action.isPressPause) := by
  -- the controller's calls account for everything but the two presses
  rw [show (d.step a).2.media = (d.controller.run d.media (d.calls a)).2 from
    congrArg Prod.snd (d.step_controller a)]
  cases a with
  | pressPlay => exact d.media.play_grows
  | pressPause => exact d.media.pause_grows
  | change c => exact d.media.change_grows c
  | event event audience =>
    refine Controller.run_counts _ _ _ fun change h => ?_
    cases audience <;> simp [calls] at h
  | _ =>
    refine Controller.run_counts _ _ _ fun change h => ?_
    simp [calls] at h

/-- What a run of a deck has loaded and played. -/
theorem run_counts (d : Deck) (actions : List Action) :
    d.media.Grows (d.run actions).media
      (Controller.locations (d.controller.starts d.media (d.callsOf actions)))
      ((d.controller.starts d.media (d.callsOf actions)).length
        + actions.countP Action.isPressPlay)
      (actions.countP Action.isPressPause) := by
  induction actions generalizing d with
  | nil => exact .refl d.media
  | cons a actions ih =>
    have h := (d.step_counts a).trans (ih (d.step a).2)
    have hcontroller := congrArg Prod.fst (d.step_controller a)
    have hmedia := congrArg Prod.snd (d.step_controller a)
    simp only at hcontroller hmedia
    -- the counts of the first action and of the rest are sorted into loads, plays and pauses
    rw [callsOf, Controller.starts_append, ← hcontroller, ← hmedia, Controller.locations,
      List.map_append, List.length_append, ← List.singleton_append, List.countP_append,
      List.countP_append]
    rwa [show ∀ p q m n : Nat, p + q + (m + n) = p + m + (q + n) by omega]

end Deck

/-- A walk over any media, with a record of what the controller asks of it. -/
theorem Controller.run_walk {μ : Type} [Media μ] (c : Controller) (r : Recorded μ) (number : Nat)
    {tracks : List Track} {i : Nat} (hi : i < tracks.length) (calls : List (Controller.Call μ))
    (hcalls : ∀ x ∈ calls, x.isCommand = false) :
    let walk := .setResults ⟨number, tracks⟩ :: .play ⟨⟨number, i⟩, tracks[i]⟩ :: calls
    let k := calls.countP Controller.Call.isEnd
    let after := c.run r (walk.map Controller.Call.recorded)
    (after.1, after.2.media) = c.run r.media walk
      ∧ after.1.pointer = (if h : i + k < tracks.length then
          some ⟨⟨number, i + k⟩, tracks[i + k]⟩ else none)
      ∧ after.2.asked = r.asked ++
          ((tracks.drop i).take (k + 1)).flatMap fun t => [.load t.audioPath, .play] := by
  intro walk k after
  have hget : (⟨number, tracks⟩ : ResultSet).get? i = some ⟨⟨number, i⟩, tracks[i]⟩ := by
    rw [ResultSet.get?_eq_dite, dif_pos hi]
  obtain ⟨hat, hstarts⟩ := Controller.run_setResults_play c r.media hget calls hcalls
  have hafter : after = _ := Controller.run_recorded c r walk
  rw [hafter]
  refine ⟨rfl, ?_, ?_⟩
  · rw [← ResultSet.get?_eq_dite ⟨number, tracks⟩]
    exact hat.pointer
  · -- the entries that are started are those of the list from the index on
    rw [hstarts, ← ResultSet.map_track_take_drop ⟨number, tracks⟩, List.flatMap_map]
    rfl

/-- A walk on a deck. -/
theorem Deck.run_walk (d : Deck) {tracks : List Track} {i : Nat} (hi : i < tracks.length)
    (actions : List Deck.Action) (hactions : ∀ a ∈ actions, a.isCommand = false) :
    let k := actions.countP Deck.Action.isEnd
    let after := d.run (.install tracks :: .play ⟨d.sets.length, i⟩ :: actions)
    after.controller.pointer = (if h : i + k < tracks.length then
        some ⟨⟨d.sets.length, i + k⟩, tracks[i + k]⟩ else none)
      ∧ after.media.loads = d.media.loads ++
          ((tracks.drop i).take (k + 1)).map Track.audioPath
      ∧ after.media.plays = d.media.plays + min (k + 1) (tracks.length - i)
          + actions.countP Deck.Action.isPressPlay := by
  intro k after
  let walk : List Deck.Action := .install tracks :: .play ⟨d.sets.length, i⟩ :: actions
  let started := ((d.step (.install tracks)).2.step (.play ⟨d.sets.length, i⟩)).2
  have hget : (⟨d.sets.length, tracks⟩ : ResultSet).get? i =
      some ⟨⟨d.sets.length, i⟩, tracks[i]⟩ := by
    rw [ResultSet.get?_eq_dite, dif_pos hi]
  have hfind : (d.step (.install tracks)).2.find? ⟨d.sets.length, i⟩ =
      some ⟨⟨d.sets.length, i⟩, tracks[i]⟩ := by
    simp [Deck.step, Deck.find?, hget]
  -- on the controller it is a walk, too, with as many ends
  have hcallsOf : d.callsOf walk = .setResults ⟨d.sets.length, tracks⟩ ::
      .play ⟨⟨d.sets.length, i⟩, tracks[i]⟩ :: started.callsOf actions := by
    simp only [walk, Deck.callsOf, Deck.calls, hfind]
    rfl
  obtain ⟨hcalls, hk⟩ := started.callsOf_isCommand actions hactions
  obtain ⟨hat, hstarts⟩ := Controller.run_setResults_play d.controller d.media hget _ hcalls
  rw [← hcallsOf, hk] at hat hstarts
  have hcounts := d.run_counts walk
  rw [hstarts] at hcounts
  refine ⟨?_, ?_, ?_⟩
  · rw [← ResultSet.get?_eq_dite ⟨d.sets.length, tracks⟩, ← hat.pointer]
    exact congrArg (·.1.pointer) (d.run_controller walk)
  · rw [hcounts.loads, Controller.locations,
      ← ResultSet.map_track_take_drop ⟨d.sets.length, tracks⟩, List.map_map]
    rfl
  -- the plays of the walk and those of the presses add up
  · have hlength : (((⟨d.sets.length, tracks⟩ : ResultSet).entries.drop i).take (k + 1)).length =
        min (k + 1) (tracks.length - i) := by simp
    rw [hcounts.plays, hlength, Nat.add_assoc]
    rfl

/-- What a walk through a list does, from the entry that is asked for on: with each end that the
controller hears of the pointer moves on by one entry, and past the last one it is at nothing.  The
controller asks its media, whatever that is, to load and then at once to play each of these entries
once, in order, and for nothing else; and it is the same on a deck, where the transport's presses
are counted as well. -/
theorem walks_list (tracks : List Track) (i : Nat) (hi : i < tracks.length) :
    (∀ {μ : Type} [Media μ] (c : Controller) (r : Recorded μ) (number : Nat)
        (calls : List (Controller.Call μ)), (∀ x ∈ calls, x.isCommand = false) →
      let walk := .setResults ⟨number, tracks⟩ :: .play ⟨⟨number, i⟩, tracks[i]⟩ :: calls
      let k := calls.countP Controller.Call.isEnd
      let after := c.run r (walk.map Controller.Call.recorded)
      (after.1, after.2.media) = c.run r.media walk
        ∧ after.1.pointer = (if h : i + k < tracks.length then
            some ⟨⟨number, i + k⟩, tracks[i + k]⟩ else none)
        ∧ after.2.asked = r.asked ++
            ((tracks.drop i).take (k + 1)).flatMap fun t => [.load t.audioPath, .play])
    ∧ ∀ (d : Deck) (actions : List Deck.Action), (∀ a ∈ actions, a.isCommand = false) →
      let k := actions.countP Deck.Action.isEnd
      let after := d.run (.install tracks :: .play ⟨d.sets.length, i⟩ :: actions)
      after.controller.pointer = (if h : i + k < tracks.length then
          some ⟨⟨d.sets.length, i + k⟩, tracks[i + k]⟩ else none)
        ∧ after.media.loads = d.media.loads ++
            ((tracks.drop i).take (k + 1)).map Track.audioPath
        ∧ after.media.plays = d.media.plays + min (k + 1) (tracks.length - i)
            + actions.countP Deck.Action.isPressPlay := by
  constructor
  · intro μ _ c r number calls hcalls
    exact c.run_walk r number hi calls hcalls
  · intro d actions hactions
    exact d.run_walk hi actions hactions

/-- A list that names one track twice, walked past its end, with a refused start, a pause and a
press of the transport in between. -/
theorem walks_list_past_end :
    0 < [({ id := 1 } : Track), { id := 1 }, { id := 2 }].length
      ∧ let after := (Deck.ofElement {}).run [.install [{ id := 1 }, { id := 1 }, { id := 2 }],
          .play ⟨0, 0⟩, .event .ended .controller, .reject ⟨0, 1⟩, .settle .failing,
          .event .pause .both, .event .ended .both, .pressPlay, .event .ended .both]
        after.controller.pointer = none
          ∧ after.media.loads = ["item/1/file", "item/1/file", "item/2/file"]
          ∧ after.media.plays = 4 := by
  obtain ⟨hpointer, hloads, hplays⟩ := (walks_list [{ id := 1 }, { id := 1 }, { id := 2 }] 0
    (by decide)).2 (Deck.ofElement {}) [.event .ended .controller, .reject ⟨0, 1⟩,
      .settle .failing, .event .pause .both, .event .ended .both, .pressPlay, .event .ended .both]
    (by simp [Deck.Action.isCommand])
  exact ⟨by decide, hpointer, hloads, hplays⟩

end LibraryPlayer
