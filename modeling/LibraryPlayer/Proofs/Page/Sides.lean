import LibraryPlayer.Page.State
import LibraryPlayer.Proofs.Playback.Calls

/-!
# The two sides of a page

A page searches and it plays.  `SearchSide` is what belongs to searching: the client, the hash, the
box, the requests with their tickets, the listed results and the selection.  `PlaySide` is what
belongs to playing: the element and the session, the pointer with a parked start, the open starts,
what was published, and what the transport shows.  The lemmas of this file say that nothing that
plays touches anything of the one (`searchSide_step`), and that nothing that searches touches
anything of the other (`playSide_step`).  The marker is of neither: both sides change it.  All that
can come of following a start is said once, in `drivePending_changes`.
-/

namespace LibraryPlayer.Page

/-- What an item's replacement has in common with it, all of the list keeps. -/
theorem map_set_of_eq {α β : Type} (f : α → β) {l : List α} {i : Nat} {a b : α}
    (ha : l[i]? = some a) (hf : f b = f a) : (l.set i b).map f = l.map f := by
  obtain ⟨hi, rfl⟩ := List.getElem?_eq_some_iff.1 ha
  have hmap : (l.map f).get ⟨i, by simpa using hi⟩ = f l[i] := by simp
  rw [List.map_set, hf, ← hmap, List.get_eq_getElem, List.set_getElem_self]

/-! ## Runs -/

/-- No action leaves a page as it is. -/
theorem run_nil (p : Page) : p.run [] = p := rfl

/-- The first action is taken first. -/
theorem run_cons (p : Page) (a : Action) (actions : List Action) :
    p.run (a :: actions) = (p.step a).2.run actions := rfl

/-- Two runs in a row are one. -/
theorem run_append (p : Page) (before after : List Action) :
    p.run (before ++ after) = (p.run before).run after := by
  rw [run, List.foldl_append]
  rfl

/-! ## What following a start can change -/

/-- The outcome of a start changes the marker, or what is published. -/
theorem conclude_changes (p : Page) (entry : Option Entry) (outcome : Outcome) :
    ∃ marked published, p.conclude entry outcome =
      { p with controller := { p.controller with marked }, published } := by
  -- what the transport asks for has no entry, and nothing is said of it
  cases entry with
  | none => exact ⟨_, _, rfl⟩
  | some e =>
    cases outcome with
    | ok _ => exact ⟨_, _, rfl⟩
    | error _ =>
      -- a rejection reaches the marker if the pointer is at the entry
      simp only [conclude, Controller.startRejected]
      split
      · exact ⟨_, _, rfl⟩
      · exact ⟨_, _, rfl⟩

/-- A start that is followed may also be left open. -/
theorem follow_changes (p : Page) (entry : Option Entry) (start : Start) :
    ∃ marked starts published, p.follow entry start =
      { p with controller := { p.controller with marked }, starts, published } := by
  cases start with
  | settled outcome =>
    obtain ⟨marked, published, h⟩ := p.conclude_changes entry outcome
    exact ⟨marked, _, published, h⟩
  | deferred number => exact ⟨_, _, _, rfl⟩

/-- With nothing parked there is nothing to follow. -/
theorem drivePending_of_none {p : Page} (h : p.controller.pending = none) :
    p.drivePending = p := by
  rw [drivePending, Controller.takePending_of_none h]

/-- A parked start is taken out and followed. -/
theorem drivePending_of_some {p : Page} {pending : PendingStart}
    (h : p.controller.pending = some pending) :
    p.drivePending =
      { p with controller := p.controller.takePending.2 }.follow (some pending.entry)
        pending.start := by
  rw [drivePending, Controller.takePending_of_some h]

/-- A start that was parked is followed, and no longer parked. -/
theorem drivePending_changes (p : Page) :
    ∃ marked starts published, p.drivePending = { p with
      controller := { p.controller with marked, pending := none }, starts, published } := by
  cases h : p.controller.pending with
  | none =>
    rw [drivePending_of_none h, ← h]
    exact ⟨_, _, _, rfl⟩
  | some pending =>
    rw [drivePending_of_some h]
    exact follow_changes { p with controller := p.controller.takePending.2 } _ _

/-! ## The side that searches -/

/-- What belongs to searching. -/
structure SearchSide where
  client : Client
  hash : String
  box : String
  results : ResultSet
  selected : Option Entry
  tickets : Tickets
  installed : Nat
  requests : List Request

/-- The side of a page that searches. -/
def searchSide (p : Page) : SearchSide where
  client := p.client
  hash := p.surroundings.hash
  box := p.box
  results := p.controller.results
  selected := p.selected
  tickets := p.tickets
  installed := p.installed
  requests := p.requests

/-! ## What plays leaves it alone -/

/-- Whether an action is about playing: a start is asked for, the transport is pressed, or the
element has something to tell. -/
def Action.isPlayback : Action → Bool
  | .doubleClick _ | .playSelected | .pressPlay | .pressPause | .event _ | .resolve _ _ => true
  | .type _ | .submit | .respond _ _ | .click _ | .change _ | .hashChange _ => false

/-- What the element does is no part of searching. -/
@[simp] theorem searchSide_withElement (p : Page) (element : Element) :
    (p.withElement element).searchSide = p.searchSide := rfl

/-- The outcome of a start is no part of searching. -/
@[simp] theorem searchSide_conclude (p : Page) (entry : Option Entry) (outcome : Outcome) :
    (p.conclude entry outcome).searchSide = p.searchSide := by
  obtain ⟨marked, published, h⟩ := p.conclude_changes entry outcome
  rw [h]
  rfl

/-- What comes of a start is no part of searching. -/
@[simp] theorem searchSide_follow (p : Page) (entry : Option Entry) (start : Start) :
    (p.follow entry start).searchSide = p.searchSide := by
  obtain ⟨marked, starts, published, h⟩ := p.follow_changes entry start
  rw [h]
  rfl

/-- To collect a start is no part of searching. -/
@[simp] theorem searchSide_drivePending (p : Page) : p.drivePending.searchSide = p.searchSide := by
  obtain ⟨marked, starts, published, h⟩ := p.drivePending_changes
  rw [h]
  rfl

/-- To play an entry is no part of searching. -/
@[simp] theorem searchSide_play (p : Page) (e : Entry) : (p.play e).searchSide = p.searchSide := by
  simp only [play, searchSide_drivePending, searchSide_withElement]
  rfl

/-- To go on playing is no part of searching. -/
@[simp] theorem searchSide_pressPlay (p : Page) : p.pressPlay.searchSide = p.searchSide := by
  simp [pressPlay]

/-- What the element tells is no part of searching. -/
@[simp] theorem searchSide_handle (p : Page) (event : MediaEvent) :
    (p.handle event).searchSide = p.searchSide := by
  rw [handle]
  -- whether or not the controller is told, what is shown belongs to playing
  split
  · simp only [searchSide_drivePending, searchSide_withElement]
    simp [searchSide]
  · rfl

/-- Nothing that plays touches what belongs to searching. -/
theorem searchSide_step (p : Page) {a : Action} (h : a.isPlayback = true) :
    (p.step a).2.searchSide = p.searchSide := by
  cases a with
  | doubleClick index =>
    simp only [step]
    split
    · exact searchSide_play p _
    · rfl
  | playSelected =>
    simp only [step]
    split
    · exact searchSide_play p _
    · rfl
  | pressPlay => exact searchSide_pressPlay p
  | pressPause => rfl
  | event event => exact searchSide_handle p event
  | resolve index refusal =>
    simp only [step]
    split
    · split
      · rfl
      · split
        · exact (searchSide_conclude _ _ _).trans rfl
        · exact (searchSide_conclude _ _ _).trans rfl
    · rfl
  -- the others are not about playing
  | type text => exact nomatch h
  | submit => exact nomatch h
  | respond index answer => exact nomatch h
  | click index => exact nomatch h
  | change c => exact nomatch h
  | hashChange c => exact nomatch h

/-! ## The side that plays -/

/-- What belongs to playing. -/
structure PlaySide where
  element : Element
  session : Session
  pointer : Option Entry
  pending : Option PendingStart
  starts : List OpenStart
  published : List NowPlaying
  display : Display

/-- The side of a page that plays. -/
def playSide (p : Page) : PlaySide where
  element := p.surroundings.element
  session := p.surroundings.session
  pointer := p.controller.pointer
  pending := p.controller.pending
  starts := p.starts
  published := p.published
  display := p.display

/-! ## What searches leaves it alone -/

/-- What an action changes around the page by itself, before the page takes it in. -/
def Action.brings : Action → SurroundingsChange
  | .change c | .hashChange c => c
  | _ => {}

/-- To begin a search is no part of playing. -/
@[simp] theorem playSide_search (p : Page) (text : String) :
    (p.search text).playSide = p.playSide := by
  simp only [search]
  split <;> rfl

/-- To take in an answer is no part of playing. -/
@[simp] theorem playSide_receive (p : Page) (request : Request) (answer : Answer) :
    (p.receive request answer).playSide = p.playSide := by
  rw [receive]
  split
  · split <;> rfl
  · rfl

/-- Nothing that searches touches what belongs to playing, apart from what the action itself brings
about. -/
theorem playSide_step (p : Page) {a : Action} (h : a.isPlayback = false) :
    (p.step a).2.playSide = { p with surroundings := p.surroundings.change a.brings }.playSide := by
  cases a with
  | type text => rfl
  | submit =>
    simp only [step, playSide_search]
    rfl
  -- an answer comes in only once, and only for a request
  | respond index answer =>
    simp only [step]
    split
    · split
      · rfl
      · exact (playSide_receive _ _ _).trans rfl
    · rfl
  | click index =>
    simp only [step]
    split <;> rfl
  | change c => rfl
  | hashChange c =>
    simp only [step, followHash]
    split
    · exact (playSide_search _ _).trans rfl
    · rfl
  -- the others are about playing
  | doubleClick index => exact nomatch h
  | playSelected => exact nomatch h
  | pressPlay => exact nomatch h
  | pressPause => exact nomatch h
  | event event => exact nomatch h
  | resolve index refusal => exact nomatch h

end LibraryPlayer.Page
