import LibraryPlayer.Proofs.Page.Starts
import LibraryPlayer.Proofs.Playback.Element
import Mathlib.Data.List.Perm.Basic

/-!
# The books of starts

A start is parked with the controller, collected, followed, and perhaps left open by the element, so
its outcome can come long after it and after outcomes of newer starts.  A `Ledger` keeps the books
of a run without any of that: the starts get numbers in their order, and what the element says of a
start is put down under its number, together with the session that there is at that moment.

* `element_run`: what the element was asked for, over a run.
* `Ledger.Balanced`: each start is in one place of the books, and there only once.
* `Accounts`: the open starts and the published tracks of a page are those of its books, and nothing
  is parked.
* `starts_driven_once`: all of this, for every run of a page.
-/

namespace LibraryPlayer

/-- A session shows a start that came out well exactly if it works. -/
theorem Session.confirm_ok (s : Session) (t : Track) :
    s.confirm t (.ok ()) = if s = .working then some (.ofTrack t) else none := by
  cases s <;> rfl

/-- A request to play that the element has left open. -/
structure Deferral where
  /-- The number of the start that it was made for, or none if the transport asked to go on. -/
  start : Option Nat
  decided : Bool := false

/-- The start that waits for the decision. -/
def Deferral.waiting (d : Deferral) : List Nat := if d.decided then [] else d.start.toList

/-- What is known of the starts of a run.  They are numbered from zero up. -/
structure Ledger where
  /-- The entries started, oldest first. -/
  started : List Entry := []
  /-- The requests to play that the element has left open, oldest first. -/
  deferred : List Deferral := []
  /-- The starts that came out well, in the order in which they did, each with the session that
  there was then. -/
  confirmed : List (Nat × Session) := []
  /-- The starts that were refused, in the order in which they were. -/
  refused : List Nat := []

namespace Ledger

/-! ## Keeping the books -/

/-- The element has said how a request came out.  Nothing is put down for one that the transport
made. -/
def settle (l : Ledger) (start : Option Nat) (session : Session) : Option String → Ledger
  | none => { l with confirmed := l.confirmed ++ start.toList.map fun k => (k, session) }
  | some _ => { l with refused := l.refused ++ start.toList }

/-- The element leaves a request open. -/
def defer (l : Ledger) (start : Option Nat) : Ledger :=
  { l with deferred := l.deferred ++ [⟨start, false⟩] }

/-- The element is asked to play and answers as its mode says. -/
def request (l : Ledger) (start : Option Nat) (session : Session) : PlayMode → Ledger
  | .accept => l.settle start session none
  | .reject reason => l.settle start session (some reason)
  | .defer => l.defer start

/-- An entry gets the next number. -/
def enter (l : Ledger) (e : Entry) : Ledger := { l with started := l.started ++ [e] }

/-- A request that was left open is now decided on. -/
def decided (l : Ledger) (index : Nat) (d : Deferral) : Ledger :=
  { l with deferred := l.deferred.set index { d with decided := true } }

/-- The element decides on a request that it had left open.  It can do so once. -/
def resolve (l : Ledger) (index : Nat) (session : Session) (refusal : Option String) : Ledger :=
  match l.deferred[index]? with
  | some d => if d.decided then l else (l.decided index d).settle d.start session refusal
  | none => l

/-! ## Reading the books -/

/-- The entry that a request was made for. -/
def lookup? (l : Ledger) (start : Option Nat) : Option Entry := start.bind fun k => l.started[k]?

/-- The requests that the element has left open, by their entries. -/
def openStarts (l : Ledger) : List OpenStart :=
  l.deferred.map fun d => ⟨l.lookup? d.start, d.decided⟩

/-- The starts that the element has yet to decide on. -/
def waiting (l : Ledger) : List Nat := l.deferred.flatMap Deferral.waiting

/-- What the session is told of a request that comes out well. -/
def shown? (l : Ledger) (start : Option Nat) (session : Session) : Option NowPlaying :=
  if session = .working then (l.lookup? start).map fun e => .ofTrack e.track else none

/-- What the session has been told: the tracks of the starts that came out well while it worked. -/
def published (l : Ledger) : List NowPlaying :=
  l.confirmed.filterMap fun c => l.shown? (some c.1) c.2

/-- The starts in all places of the books. -/
def fates (l : Ledger) : List Nat := l.confirmed.map Prod.fst ++ (l.refused ++ l.waiting)

/-! ## What an entry in the books keeps -/

/-- Settling a start adds no entry. -/
@[simp] theorem started_settle (l : Ledger) (start : Option Nat) (session : Session)
    (refusal : Option String) : (l.settle start session refusal).started = l.started := by
  cases refusal <;> rfl

/-- Settling a start leaves the open requests as they are. -/
@[simp] theorem deferred_settle (l : Ledger) (start : Option Nat) (session : Session)
    (refusal : Option String) : (l.settle start session refusal).deferred = l.deferred := by
  cases refusal <;> rfl

/-- A request adds no entry. -/
@[simp] theorem started_request (l : Ledger) (start : Option Nat) (session : Session)
    (mode : PlayMode) : (l.request start session mode).started = l.started := by
  cases mode with
  | accept => rfl
  | reject reason => rfl
  | defer => rfl

/-- A decision adds no entry. -/
@[simp] theorem started_resolve (l : Ledger) (index : Nat) (session : Session)
    (refusal : Option String) : (l.resolve index session refusal).started = l.started := by
  rw [resolve]
  split
  · split
    · rfl
    · exact started_settle _ _ _ _
  · rfl

/-- A request that comes out well is shown after all others. -/
theorem published_confirmed (l : Ledger) (start : Option Nat) (session : Session) :
    (l.settle start session none).published = l.published ++ (l.shown? start session).toList := by
  have hkept : (l.settle start session none).published =
      (l.confirmed ++ start.toList.map fun k => (k, session)).filterMap fun c =>
        l.shown? (some c.1) c.2 := rfl
  rw [hkept, List.filterMap_append, published]
  -- a request of the transport has no entry, so nothing is shown of it
  cases start with
  | none => simp [shown?, lookup?]
  | some k =>
    cases h : l.shown? (some k) session with
    | none => simp [h]
    | some shown => simp [h]

/-! ## Each start is in one place -/

open scoped List

/-- The places of the books, with the open starts last. -/
theorem fates_eq (l : Ledger) : l.fates = (l.confirmed.map Prod.fst ++ l.refused) ++ l.waiting :=
  (List.append_assoc _ _ _).symm

/-- A start that is settled gets one place more. -/
theorem fates_settle (l : Ledger) (start : Option Nat) (session : Session)
    (refusal : Option String) :
    (l.settle start session refusal).fates ~ start.toList ++ l.fates := by
  -- the new place is in the middle of the list, at the end of the confirmed or of the refused ones
  cases refusal with
  | none =>
    have hnumbers : (start.toList.map fun k => (k, session)).map Prod.fst = start.toList := by
      rw [List.map_map]
      exact List.map_id _
    have hfates : (l.settle start session none).fates =
        l.confirmed.map Prod.fst ++ (start.toList ++ (l.refused ++ l.waiting)) := by
      rw [← List.append_assoc, ← hnumbers, ← List.map_append]
      rfl
    rw [hfates]
    exact List.perm_append_comm_assoc _ _ _
  | some reason =>
    have hfates : (l.settle start session (some reason)).fates =
        (l.confirmed.map Prod.fst ++ l.refused) ++ (start.toList ++ l.waiting) := by
      rw [fates_eq, settle, ← List.append_assoc, ← List.append_assoc]
      rfl
    rw [hfates, fates_eq]
    exact List.perm_append_comm_assoc _ _ _

/-- A start that is left open has its place among the open ones. -/
theorem fates_defer (l : Ledger) (start : Option Nat) :
    (l.defer start).fates ~ start.toList ++ l.fates := by
  -- the open starts are the last ones in the list, so the new one is at its end
  have hwaiting : (l.defer start).waiting = l.waiting ++ start.toList := by
    simp [defer, waiting, Deferral.waiting]
  have hfates : (l.defer start).fates = l.fates ++ start.toList := by
    rw [fates_eq, fates_eq, hwaiting, ← List.append_assoc]
    rfl
  rw [hfates]
  exact List.perm_append_comm

/-- However the element answers, a request gives its start one place. -/
theorem fates_request (l : Ledger) (start : Option Nat) (session : Session) (mode : PlayMode) :
    (l.request start session mode).fates ~ start.toList ++ l.fates := by
  cases mode with
  | accept => exact l.fates_settle start session none
  | reject reason => exact l.fates_settle start session (some reason)
  | defer => exact l.fates_defer start

/-- A request that is decided on no longer waits. -/
theorem waiting_decided {l : Ledger} {index : Nat} {d : Deferral}
    (h : l.deferred[index]? = some d) (hopen : d.decided = false) :
    d.start.toList ++ (l.decided index d).waiting ~ l.waiting := by
  obtain ⟨hindex, rfl⟩ := List.getElem?_eq_some_iff.1 h
  -- the other requests are the same before and after
  have hafter := List.Perm.flatMap_right Deferral.waiting
    (List.set_perm_cons_eraseIdx hindex { l.deferred[index] with decided := true })
  have hbefore := List.Perm.flatMap_right Deferral.waiting
    (List.getElem_cons_eraseIdx_perm hindex)
  rw [List.flatMap_cons] at hafter hbefore
  have hwaits : l.deferred[index].waiting = l.deferred[index].start.toList := by
    simp [Deferral.waiting, hopen]
  rw [hwaits] at hbefore
  exact (hafter.append_left _).trans hbefore

/-- A decision moves a start from one place to another. -/
theorem fates_resolve (l : Ledger) (index : Nat) (session : Session) (refusal : Option String) :
    (l.resolve index session refusal).fates ~ l.fates := by
  rw [resolve]
  split
  next d hd =>
    split
    · exact .refl _
    next hopen =>
      have hwaiting := waiting_decided hd (Bool.not_eq_true _ ▸ hopen)
      have hmoved : (l.decided index d).fates =
          (l.confirmed.map Prod.fst ++ l.refused) ++ (l.decided index d).waiting := fates_eq _
      -- settled, the start has its new place; decided on, it has left the old one
      calc ((l.decided index d).settle d.start session refusal).fates
        _ ~ d.start.toList ++ (l.decided index d).fates := fates_settle _ _ _ _
        _ ~ (l.confirmed.map Prod.fst ++ l.refused)
            ++ (d.start.toList ++ (l.decided index d).waiting) := by
          rw [hmoved]
          exact List.perm_append_comm_assoc _ _ _
        _ ~ (l.confirmed.map Prod.fst ++ l.refused) ++ l.waiting := hwaiting.append_left _
        _ = l.fates := l.fates_eq.symm
  next => exact .refl _

/-- Each start is in one place of the books, and in that once. -/
structure Balanced (l : Ledger) : Prop where
  fates : l.fates ~ List.range l.started.length
  /-- What was left open was asked for starts of the books, or by the transport. -/
  deferred : ∀ d ∈ l.deferred, ∀ k ∈ d.start, k < l.started.length

/-- Empty books balance. -/
theorem balanced_empty : Balanced {} := ⟨.refl _, fun _ hd => nomatch hd⟩

/-- A request is left open for its own start. -/
theorem mem_deferred_request {l : Ledger} {start : Option Nat} {session : Session}
    {mode : PlayMode} {d : Deferral} (h : d ∈ (l.request start session mode).deferred) :
    d ∈ l.deferred ∨ d = ⟨start, false⟩ := by
  cases mode with
  | accept => exact .inl h
  | reject reason => exact .inl h
  | defer => simpa [request, defer] using h

/-- Books still balance after the transport has asked to go on. -/
theorem Balanced.request {l : Ledger} (h : l.Balanced) (session : Session) (mode : PlayMode) :
    (l.request none session mode).Balanced := by
  refine ⟨?_, fun d hd k hk => ?_⟩
  · rw [started_request]
    exact (l.fates_request none session mode).trans h.fates
  · rw [started_request]
    obtain hd | rfl := mem_deferred_request hd
    · exact h.deferred d hd k hk
    -- what the transport asks for is no start
    · exact nomatch hk

/-- Books still balance after an entry has been started. -/
theorem Balanced.start {l : Ledger} (h : l.Balanced) (e : Entry) (session : Session)
    (mode : PlayMode) :
    ((l.enter e).request (some l.started.length) session mode).Balanced := by
  have hlength : (l.enter e).started.length = l.started.length + 1 := List.length_append
  refine ⟨?_, fun d hd k hk => ?_⟩
  · rw [started_request, hlength, List.range_succ]
    -- the new start has one place, and its number is the next one
    calc ((l.enter e).request (some l.started.length) session mode).fates
      _ ~ [l.started.length] ++ l.fates := fates_request _ _ _ _
      _ ~ l.fates ++ [l.started.length] := List.perm_append_comm
      _ ~ List.range l.started.length ++ [l.started.length] := h.fates.append_right _
  · rw [started_request, hlength]
    obtain hd | rfl := mem_deferred_request hd
    · exact Nat.lt_succ_of_lt (h.deferred d hd k hk)
    · obtain rfl := Option.some.inj hk
      exact Nat.lt_succ_self _

/-- Books still balance after a decision of the element. -/
theorem Balanced.resolve {l : Ledger} (h : l.Balanced) (index : Nat) (session : Session)
    (refusal : Option String) : (l.resolve index session refusal).Balanced := by
  refine ⟨?_, ?_⟩
  · rw [started_resolve]
    exact (l.fates_resolve index session refusal).trans h.fates
  · rw [started_resolve, Ledger.resolve]
    split
    next d hd =>
      split
      · exact h.deferred
      -- a decision changes one request, and leaves its start as it is
      · intro d' hd' k hk
        rw [deferred_settle] at hd'
        obtain hd' | rfl := List.mem_or_eq_of_mem_set hd'
        · exact h.deferred d' hd' k hk
        · exact h.deferred d (List.mem_of_getElem? hd) k hk
    next => exact h.deferred

/-! ## A new start changes nothing that is in the books -/

/-- Starts that are in the books are still those of their entries. -/
theorem lookup?_enter (l : Ledger) (e : Entry) {start : Option Nat}
    (h : ∀ k ∈ start, k < l.started.length) : (l.enter e).lookup? start = l.lookup? start := by
  cases start with
  | none => rfl
  | some k => exact List.getElem?_append_left (h k rfl)

/-- The next number is that of the new entry. -/
theorem lookup?_enter_self (l : Ledger) (e : Entry) :
    (l.enter e).lookup? (some l.started.length) = some e := List.getElem?_concat_length

/-- A new entry changes nothing about the open starts. -/
theorem Balanced.openStarts_enter {l : Ledger} (h : l.Balanced) (e : Entry) :
    (l.enter e).openStarts = l.openStarts :=
  List.map_congr_left fun d hd => by rw [l.lookup?_enter e (h.deferred d hd)]

/-- A new entry changes nothing about what was published. -/
theorem Balanced.published_enter {l : Ledger} (h : l.Balanced) (e : Entry) :
    (l.enter e).published = l.published := by
  refine List.filterMap_congr fun c hc => ?_
  -- what has a place in the books has a number below the new one
  have hfate : c.1 ∈ l.fates := List.mem_append_left _ (List.mem_map_of_mem hc)
  have hlt : c.1 < l.started.length := List.mem_range.1 (h.fates.subset hfate)
  have hentry : (l.enter e).lookup? (some c.1) = l.lookup? (some c.1) :=
    l.lookup?_enter e fun k hk => Option.some.inj hk ▸ hlt
  rw [shown?, shown?, hentry]

end Ledger

namespace Page

/-! ## The books of a page -/

/-- Puts down an action that starts no entry: what the transport asks for, or a decision of the
element. -/
def note (p : Page) (l : Ledger) : Action → Ledger
  | .pressPlay => l.request none p.surroundings.session p.element.mode
  | .resolve index refusal => l.resolve index p.surroundings.session refusal
  | _ => l

/-- Puts down one action on a page. -/
def enter (p : Page) (l : Ledger) (a : Action) : Ledger :=
  match p.started? a with
  | some e => (l.enter e).request (some l.started.length) p.surroundings.session p.element.mode
  | none => p.note l a

/-- Puts down actions on a page, one after the other. -/
def ledger (p : Page) (l : Ledger) : List Action → Ledger
  | [] => l
  | a :: actions => (p.step a).2.ledger (p.enter l a) actions

/-- The open starts of a page and what it has published are those of its books. -/
structure Agrees (p : Page) (l : Ledger) : Prop where
  starts : p.starts = l.openStarts
  published : p.published = l.published

/-- A page has books that balance and that it agrees with, and no start is parked that nobody has
collected. -/
structure Accounts (p : Page) (l : Ledger) : Prop extends p.Agrees l where
  balanced : l.Balanced
  collected : p.controller.pending = none

/-- The outcome of a request, as the page is told of it. -/
def outcome : Option String → Outcome
  | none => .ok ()
  | some reason => .error (.rejected reason)

/-- The outcome of a request goes where the books put it down. -/
theorem Agrees.conclude {p : Page} {l : Ledger} (h : p.Agrees l) (start : Option Nat)
    (refusal : Option String) :
    (p.conclude (l.lookup? start) (outcome refusal)).Agrees
      (l.settle start p.surroundings.session refusal) := by
  cases refusal with
  | some reason =>
    cases l.lookup? start with
    | none => exact ⟨h.starts, h.published⟩
    | some e => exact ⟨h.starts, h.published⟩
  | none =>
    -- a start that came out well is shown if the session works, in the page as in the books
    have hpublished := l.published_confirmed start p.surroundings.session
    rw [← h.published, Ledger.shown?] at hpublished
    cases hentry : l.lookup? start with
    | none => exact ⟨h.starts, by simpa [hentry, Page.conclude] using hpublished.symm⟩
    | some e =>
      refine ⟨h.starts, ?_⟩
      rw [hpublished, hentry, Option.map_some, ← Session.confirm_ok]
      rfl

/-- What the element answers to a request is followed as the books put it down. -/
theorem Agrees.follow {p : Page} {l : Ledger} (h : p.Agrees l) (start : Option Nat)
    (media : Element) :
    (p.follow (l.lookup? start) media.play.1).Agrees
      (l.request start p.surroundings.session media.mode) := by
  rw [Element.play]
  cases media.mode with
  | accept => exact h.conclude start none
  | reject reason => exact h.conclude start (some reason)
  | defer =>
    refine ⟨?_, h.published⟩
    have hopen : (l.defer start).openStarts = l.openStarts ++ [⟨l.lookup? start, false⟩] :=
      List.map_append
    exact (congrArg (· ++ _) h.starts).trans hopen.symm

/-- An outcome parks nothing. -/
@[simp] theorem conclude_pending (p : Page) (entry : Option Entry) (outcome : Outcome) :
    (p.conclude entry outcome).controller.pending = p.controller.pending := by
  obtain ⟨marked, published, h⟩ := p.conclude_changes entry outcome
  rw [h]

/-- To follow a start parks nothing. -/
@[simp] theorem follow_pending (p : Page) (entry : Option Entry) (start : Start) :
    (p.follow entry start).controller.pending = p.controller.pending := by
  obtain ⟨marked, starts, published, h⟩ := p.follow_changes entry start
  rw [h]

/-- The page with an entry handed to the element, whose answer has been collected and is still to be
followed. -/
def handed (p : Page) (e : Entry) : Page :=
  withElement { p with controller := (p.controller.play e p.element).1.takePending.2 }
    (p.controller.play e p.element).2

/-- A start that is made is collected and followed at once. -/
theorem play_eq_follow (p : Page) (e : Entry) :
    p.play e = (p.handed e).follow (some e) (p.element.load e.track.audioPath).play.1 := rfl

/-- An entry that is played is one start more in the books. -/
theorem Agrees.play {p : Page} {l : Ledger} (h : p.Agrees l) (hl : l.Balanced) (e : Entry) :
    (p.play e).Accounts
      ((l.enter e).request (some l.started.length) p.surroundings.session p.element.mode) := by
  -- the entry is put down first, and then what the element says of its start
  have hhanded : (p.handed e).Agrees (l.enter e) :=
    ⟨h.starts.trans (hl.openStarts_enter e).symm, h.published.trans (hl.published_enter e).symm⟩
  have hfollow := hhanded.follow (some l.started.length) (p.element.load e.track.audioPath)
  rw [l.lookup?_enter_self, ← play_eq_follow] at hfollow
  refine ⟨hfollow, hl.start e _ _, ?_⟩
  rw [play_eq_follow, follow_pending]
  rfl

/-- An event that starts no entry changes nothing in the books. -/
theorem handle_of_not_started {p : Page} {event : MediaEvent}
    (h : p.started? (.event event) = none) (hpending : p.controller.pending = none) :
    (p.handle event).starts = p.starts ∧ (p.handle event).published = p.published ∧
      (p.handle event).controller.pending = none := by
  cases htransport : event.isTransport with
  | false =>
    rw [handle, htransport]
    exact ⟨rfl, rfl, hpending⟩
  | true =>
    -- only an end can park a start, and this one finds nothing to go on to
    have hparked : (p.controller.handle event p.element).1.pending = none := by
      cases event with
      | ended =>
        have hnext : p.controller.pointer.bind p.controller.results.following? = none := h
        rw [Controller.handle, Controller.advance, hnext]
        exact hpending
      | _ => exact hpending
    rw [p.handle_of_transport htransport, drivePending_of_none hparked]
    exact ⟨rfl, rfl, hparked⟩

/-- Only the open starts, the published tracks and what is parked matter. -/
theorem Accounts.of_eq {p p' : Page} {l : Ledger} (h : p.Accounts l)
    (hstarts : p'.starts = p.starts) (hpublished : p'.published = p.published)
    (hpending : p'.controller.pending = p.controller.pending) : p'.Accounts l :=
  ⟨⟨hstarts.trans h.starts, hpublished.trans h.published⟩, h.balanced,
    hpending.trans h.collected⟩

/-- Only the side that plays matters. -/
theorem Accounts.of_playSide {p p' : Page} {l : Ledger} (h : p.Accounts l)
    (hside : p'.playSide = p.playSide) : p'.Accounts l :=
  h.of_eq (congrArg PlaySide.starts hside) (congrArg PlaySide.published hside)
    (congrArg PlaySide.pending hside)

/-- Nothing that searches is put down. -/
theorem Accounts.of_not_playback {p : Page} {l : Ledger} (h : p.Accounts l) {a : Action}
    (ha : a.isPlayback = false) : (p.step a).2.Accounts l := by
  have hbrought : { p with surroundings := p.surroundings.change a.brings }.Accounts l :=
    h.of_eq rfl rfl rfl
  exact hbrought.of_playSide (p.playSide_step ha)

/-- What the transport asks for is followed as well, though nothing is shown of it. -/
theorem Accounts.pressPlay {p : Page} {l : Ledger} (h : p.Accounts l) :
    p.pressPlay.Accounts (l.request none p.surroundings.session p.element.mode) := by
  have hpressed : (p.withElement p.element.play.2).Agrees l := ⟨h.starts, h.published⟩
  exact ⟨hpressed.follow none p.element, h.balanced.request _ _,
    (follow_pending _ none p.element.play.1).trans h.collected⟩

/-- A decision is put down on the page and in the books alike. -/
theorem Agrees.decided {p : Page} {l : Ledger} (h : p.Agrees l) (index : Nat) (d : Deferral) :
    { p with starts := p.starts.set index ⟨l.lookup? d.start, true⟩ }.Agrees
      (l.decided index d) := by
  refine ⟨?_, h.published⟩
  have hset : (l.decided index d).openStarts = l.openStarts.set index ⟨l.lookup? d.start, true⟩ :=
    List.map_set
  rw [hset, ← h.starts]

/-- A decision of the element on a request that it had left open goes to the page and to the
books. -/
theorem Accounts.resolve {p : Page} {l : Ledger} (h : p.Accounts l) (index : Nat)
    (refusal : Option String) :
    (p.step (.resolve index refusal)).2.Accounts
      (l.resolve index p.surroundings.session refusal) := by
  have hbalanced := h.balanced.resolve index p.surroundings.session refusal
  -- the page and the books look for the same request
  have hget : p.starts[index]? =
      l.deferred[index]?.map fun d => ⟨l.lookup? d.start, d.decided⟩ := by
    rw [h.starts, Ledger.openStarts, List.getElem?_map]
  rw [Ledger.resolve] at hbalanced ⊢
  rw [Page.step]
  -- the page has an open start at the index exactly if the books have a request waiting there
  cases hd : l.deferred[index]? with
  | none =>
    rw [hd, Option.map_none] at hget
    rw [hget]
    exact h
  | some d =>
    rw [hd, Option.map_some] at hget
    rw [hget]
    rw [hd] at hbalanced
    cases hdecided : d.decided with
    | true =>
      simp only [hdecided, if_true]
      exact h
    | false =>
      simp only [hdecided, Bool.false_eq_true, if_false] at hbalanced ⊢
      have hdecision := h.toAgrees.decided index d
      cases refusal with
      | none =>
        have hbegun : ({ p with starts := p.starts.set index ⟨l.lookup? d.start, true⟩ }.withElement
            p.element.begun).Agrees (l.decided index d) := ⟨hdecision.starts, hdecision.published⟩
        exact ⟨hbegun.conclude d.start none, hbalanced,
          (conclude_pending _ _ _).trans h.collected⟩
      | some reason =>
        exact ⟨hdecision.conclude d.start (some reason), hbalanced,
          (conclude_pending _ _ _).trans h.collected⟩

/-! ## Runs -/

/-- What happens to a page is put down in its books. -/
theorem Accounts.step {p : Page} {l : Ledger} (h : p.Accounts l) (a : Action) :
    (p.step a).2.Accounts (p.enter l a) := by
  cases hstarted : p.started? a with
  | some e =>
    -- an entry that starts because another one has ended is played on the page that this one left
    obtain ⟨q, hstep, hsurroundings, hstarts, hpublished⟩ := step_eq_play hstarted
    have hq : q.Agrees l := ⟨hstarts.trans h.starts, hpublished.trans h.published⟩
    have hplay := hq.play h.balanced e
    rw [element, hsurroundings, ← hstep] at hplay
    rw [enter, hstarted]
    exact hplay
  | none =>
    have hnote : p.enter l a = p.note l a := by rw [enter, hstarted]
    rw [hnote]
    cases a with
    | doubleClick index =>
      have hget : p.controller.results.get? index = none := hstarted
      simp only [Page.step, hget]
      exact h
    | playSelected =>
      have hselected : p.selected = none := hstarted
      simp only [Page.step, hselected]
      exact h
    | event event =>
      obtain ⟨hstarts, hpublished, hpending⟩ := handle_of_not_started hstarted h.collected
      exact h.of_eq hstarts hpublished (hpending.trans h.collected.symm)
    | pressPlay => exact h.pressPlay
    | pressPause => exact h.of_eq rfl rfl rfl
    | resolve index refusal => exact h.resolve index refusal
    -- the others are about searching
    | _ => exact h.of_not_playback rfl

/-- What happens in a run is put down in the books. -/
theorem Accounts.run {p : Page} {l : Ledger} (h : p.Accounts l) (actions : List Action) :
    (p.run actions).Accounts (p.ledger l actions) := by
  induction actions generalizing p l with
  | nil => exact h
  | cons a actions ih => exact ih (h.step a)

/-- A page is launched with empty books. -/
theorem accounts_launch (base : String) (s : Surroundings) : (launch base s).Accounts {} := by
  have hempty : ∀ p : Page, p.controller = {} → p.starts = [] → p.published = [] →
      p.Accounts {} := by
    intro p hcontroller hstarts hpublished
    exact ⟨⟨hstarts, hpublished⟩, Ledger.balanced_empty, hcontroller ▸ rfl⟩
  unfold launch
  exact (hempty _ rfl rfl rfl).of_playSide (playSide_search _ _)

/-- What is put down without an entry adds none. -/
theorem started_note (p : Page) (l : Ledger) (a : Action) : (p.note l a).started = l.started := by
  cases a with
  | pressPlay => exact l.started_request none _ _
  | resolve index refusal => exact l.started_resolve index _ refusal
  | _ => rfl

/-- The entries in the books are those that were started, in their order. -/
theorem started_ledger (p : Page) (l : Ledger) (actions : List Action) :
    (p.ledger l actions).started = l.started ++ p.plays actions := by
  induction actions generalizing p l with
  | nil => exact (List.append_nil _).symm
  | cons a actions ih =>
    -- what follows an entry in the books is about its start and adds no other entry
    have hstarted : (p.enter l a).started = l.started ++ (p.started? a).toList := by
      rw [enter]
      cases p.started? a with
      | none => rw [started_note, Option.toList_none, List.append_nil]
      | some e => exact Ledger.started_request _ _ _ _
    rw [ledger, ih, hstarted, plays, List.append_assoc]

/-! ## What the element is asked for -/

/-- Whether an action is the transport's request to go on playing. -/
def Action.isPressPlay : Action → Bool
  | .pressPlay => true
  | _ => false

/-- Whether an action is the transport's request to pause. -/
def Action.isPressPause : Action → Bool
  | .pressPause => true
  | _ => false

/-- An outcome leaves the element alone. -/
@[simp] theorem element_conclude (p : Page) (entry : Option Entry) (outcome : Outcome) :
    (p.conclude entry outcome).element = p.element := by
  obtain ⟨marked, published, h⟩ := p.conclude_changes entry outcome
  rw [h]
  rfl

/-- To follow a start leaves the element alone. -/
@[simp] theorem element_follow (p : Page) (entry : Option Entry) (start : Start) :
    (p.follow entry start).element = p.element := by
  obtain ⟨marked, starts, published, h⟩ := p.follow_changes entry start
  rw [h]
  rfl

/-- To collect a start leaves the element alone. -/
@[simp] theorem element_drivePending (p : Page) : p.drivePending.element = p.element := by
  obtain ⟨marked, starts, published, h⟩ := p.drivePending_changes
  rw [h]
  rfl

/-- An entry that is played is loaded and played once. -/
theorem element_play (p : Page) (e : Entry) :
    p.element.Grows (p.play e).element (Controller.locations [e]) 1 0 := by
  have hplay : (p.play e).element = (p.controller.play e p.element).2 := element_drivePending _
  exact hplay ▸ Controller.play_counts p.controller e p.element

/-- An event asks of the element what the entry that it starts does. -/
theorem element_handle (p : Page) (event : MediaEvent) :
    p.element.Grows (p.handle event).element
      (Controller.locations (p.started? (.event event)).toList)
      (p.started? (.event event)).toList.length 0 := by
  cases event with
  | ended =>
    have hadvance : (p.handle .ended).element = (p.controller.advance p.element).2 :=
      element_drivePending _
    exact hadvance ▸ Controller.advance_counts p.controller p.element
  | playing =>
    have hkept : (p.handle .playing).element = p.element := element_drivePending _
    exact hkept ▸ .refl _
  | pause =>
    have hkept : (p.handle .pause).element = p.element := element_drivePending _
    exact hkept ▸ .refl _
  | _ => exact .refl _

/-- The element is on the side that plays. -/
theorem element_of_playSide {p p' : Page} (hside : p'.playSide = p.playSide) :
    p'.element = p.element := congrArg PlaySide.element hside

/-- To launch a page asks nothing of the element. -/
theorem element_launch (base : String) (s : Surroundings) :
    (launch base s).element = s.element := by
  unfold launch
  exact element_of_playSide (playSide_search _ _)

/-- Nothing that searches asks anything of the element, and what changes around the page counts for
nothing. -/
theorem element_of_not_playback (p : Page) {a : Action} (ha : a.isPlayback = false) :
    p.element.Grows (p.step a).2.element [] 0 0 := by
  rw [element_of_playSide (p.playSide_step ha)]
  exact p.element.change_grows a.brings.element

/-- An action asks the element for the entry that it starts; the transport's two buttons ask for one
more play and for one pause. -/
theorem element_step (p : Page) (a : Action) :
    p.element.Grows (p.step a).2.element (Controller.locations (p.started? a).toList)
      ((p.started? a).toList.length + [a].countP Action.isPressPlay)
      ([a].countP Action.isPressPause) := by
  cases a with
  -- without an entry to play nothing is asked for
  | doubleClick index =>
    simp only [step, started?]
    cases p.controller.results.get? index with
    | none => exact .refl p.element
    | some e => exact p.element_play e
  | playSelected =>
    simp only [step, started?]
    cases p.selected with
    | none => exact .refl p.element
    | some e => exact p.element_play e
  | event event => exact p.element_handle event
  | pressPlay =>
    have hpressed : p.pressPlay.element = p.element.play.2 := element_follow _ none _
    exact hpressed ▸ p.element.play_grows
  | pressPause => exact p.element.pause_grows
  | resolve index refusal =>
    -- an element that begins to play at last was asked for it before
    have hbegun : p.element.Grows p.element.begun [] 0 0 := ⟨by simp [Element.begun], rfl, rfl⟩
    simp only [step]
    split
    · split
      · exact .refl p.element
      · cases refusal with
        | none => exact (element_conclude _ _ _).symm ▸ hbegun
        | some reason => exact (element_conclude _ _ _).symm ▸ .refl p.element
    · exact .refl p.element
  -- the others are about searching
  | _ => exact p.element_of_not_playback rfl

/-- What the element was asked for, over a run. -/
theorem element_run (p : Page) (actions : List Action) :
    p.element.Grows (p.run actions).element (Controller.locations (p.plays actions))
      ((p.plays actions).length + actions.countP Action.isPressPlay)
      (actions.countP Action.isPressPause) := by
  induction actions generalizing p with
  | nil => exact .refl p.element
  | cons a actions ih =>
    have hrun := (p.element_step a).trans (ih (p.step a).2)
    rw [plays, Controller.locations, List.map_append, List.length_append, ← List.singleton_append,
      List.countP_append, List.countP_append]
    rwa [Nat.add_add_add_comm] at hrun

/-! ## Every run -/

/-- However the element answers, in whatever order it decides on what it left open, and whatever
comes in between: every start is driven once, and is shown once it has come out well.

The element has been asked for the audio of the entries that were started, in their order, and to
play once for each of them and for each press of the transport.  No start is parked that nobody has
collected.  Each start, by its number, is in one place: it has come out well, or it was refused, or
the element has yet to decide on it.  The session has been told of the tracks of the starts that
came out well while it worked, in the order in which they did, and of nothing else. -/
theorem starts_driven_once (base : String) (s : Surroundings) (actions : List Action) :
    let p := (launch base s).run actions
    let started := (launch base s).plays actions
    let ledger := (launch base s).ledger {} actions
    p.element.loads = s.element.loads ++ started.map (fun e => e.track.audioPath) ∧
    p.element.plays =
      s.element.plays + (started.length + actions.countP Action.isPressPlay) ∧
    p.element.pauses = s.element.pauses + actions.countP Action.isPressPause ∧
    p.controller.pending = none ∧
    ledger.started = started ∧
    p.starts = ledger.openStarts ∧
    (ledger.confirmed.map Prod.fst ++ (ledger.refused ++ ledger.waiting)).Perm
      (List.range started.length) ∧
    p.published = ledger.confirmed.filterMap fun c =>
      if c.2 = .working then started[c.1]?.map fun e => NowPlaying.ofTrack e.track else none := by
  intro p started ledger
  have haccounts : p.Accounts ledger := (accounts_launch base s).run actions
  have hstarted : ledger.started = started := started_ledger _ {} actions
  have hasked : s.element.Grows p.element (Controller.locations started)
      (started.length + actions.countP Action.isPressPlay)
      (actions.countP Action.isPressPause) := by
    rw [← element_launch base s]
    exact (launch base s).element_run actions
  clear_value p started ledger
  refine ⟨hasked.loads, hasked.plays, hasked.pauses, haccounts.collected, hstarted,
    haccounts.starts, hstarted ▸ haccounts.balanced.fates, ?_⟩
  rw [haccounts.published, ← hstarted]
  rfl

/-- Two rows are double-clicked while the element leaves every start open; then it decides on the
second start first, and on the first one while the session fails. -/
def secondFirst : List Action :=
  let body := "\x7b\"results\":[[1],[2,\"Love\",\"Ann\",\"One\"]]\x7d"
  [.type "q", .submit, .respond 0 (.reply 200 body.toUTF8.toList), .doubleClick 0, .doubleClick 1,
    .resolve 1 none, .change { session := some .failing }, .resolve 0 none]

/-- Of two starts that come out well the session is told of the one that did so while it worked, by
title, artist and album. -/
theorem starts_driven_once_of_second_first :
    let p := (launch "http://h" { element := { mode := .defer } }).run secondFirst
    p.element.loads = ["item/1/file", "item/2/file"] ∧ p.element.plays = 2 ∧
      p.controller.pending = none ∧ p.published = [⟨"Love", "Ann", "One", []⟩] := by
  have hstarted : (launch "http://h" { element := { mode := .defer } }).plays secondFirst =
      [⟨⟨0, 0⟩, { id := 1 }⟩,
        ⟨⟨0, 1⟩, { id := 2, title := "Love", artist := "Ann", album := "One" }⟩] := by
    decide +kernel
  have hconfirmed : ((launch "http://h" { element := { mode := .defer } }).ledger {}
      secondFirst).confirmed = [(1, .working), (0, .failing)] := by decide +kernel
  obtain ⟨hloads, hplays, -, hpending, -, -, -, hpublished⟩ :=
    starts_driven_once "http://h" { element := { mode := .defer } } secondFirst
  rw [hstarted] at hloads hplays hpublished
  -- the first start came out well while the session failed, so it is not shown
  rw [hconfirmed] at hpublished
  exact ⟨hloads, hplays, hpending, hpublished⟩

end Page

end LibraryPlayer
