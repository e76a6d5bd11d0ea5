import LibraryPlayer.Playback.Controller
import LibraryPlayer.Playback.Display
import LibraryPlayer.Playback.NowPlaying

/-! # A deck

A controller and a transport on one media element, without a page around them: result sets are
installed and installed again, starts are collected and settled when it pleases, and events reach
either observer alone or both, the transport first.
-/

namespace LibraryPlayer

/-- Who is told about an event. -/
inductive Audience where
  | transport | controller | both
  deriving DecidableEq

/-- The state of a deck. -/
structure Deck where
  media : Element
  controller : Controller := {}
  /-- Everything the transport has shown, oldest first. -/
  shown : List Render
  /-- The result sets installed so far; each has its place in this list as its number. -/
  sets : List ResultSet := []
  /-- The starts collected for later; one that has been settled leaves its slot empty. -/
  held : List (Option PendingStart) := []
  /-- What sessions have been told, oldest first. -/
  published : List NowPlaying := []

namespace Deck

/-- A deck on an element; the transport shows it at once. -/
def ofElement (media : Element) : Deck := { media, shown := firstRenders media.reading }

/-- What can be done with a deck. -/
inductive Action where
  /-- Installs tracks as a new result set. -/
  | install (tracks : List Track)
  /-- Installs an earlier set again. -/
  | reinstall (set : Nat)
  | play (id : EntryId)
  /-- Reports that a start of an entry was refused. -/
  | reject (id : EntryId)
  /-- Collects the parked start and settles it. -/
  | settle (session : Session)
  /-- Collects the parked start for later. -/
  | hold
  /-- Settles a start that was collected for later. -/
  | settleHeld (slot : Nat) (session : Session)
  | change (change : ElementChange)
  | event (event : MediaEvent) (audience : Audience)
  | pressPlay
  | pressPause

/-- What an action answers. -/
inductive Answer where
  | done
  /-- The number of tracks installed. -/
  | installed (count : Nat)
  | noSuchSet
  | noSuchTrack
  | nothingPending
  | nothingHeld
  /-- The track whose start is held. -/
  | held (track : Track)
  /-- The track whose start was settled, and how it came out. -/
  | settled (track : Track) (outcome : Outcome)
  /-- How a request of the transport came out. -/
  | pressed (outcome : Outcome)
  /-- The element has left the outcome open. -/
  | pending

/-- An entry of the sets installed so far. -/
def find? (d : Deck) (id : EntryId) : Option Entry := d.sets[id.set]?.bind (·.get? id.index)

/-- Every entry that is marked, over all sets. -/
def markedEntries (d : Deck) : List EntryId :=
  ((d.sets.flatMap ResultSet.entries).filter d.controller.isMarked).map Entry.id

/-- Settles a start with a session. -/
def settle (d : Deck) (pending : PendingStart) (session : Session) : Answer × Deck :=
  match pending.start with
  | .settled outcome =>
    (.settled pending.entry.track outcome,
      { d with
        published := d.published ++ (session.confirm pending.entry.track outcome).toList })
  | .deferred _ => (.pending, d)

/-- The transport is told about an event. -/
def tellTransport (d : Deck) (event : MediaEvent) : Deck :=
  { d with shown := d.shown ++ event.renders d.media.reading }

/-- The controller is told about an event. -/
def tellController (d : Deck) (event : MediaEvent) : Deck :=
  let (controller, media) := d.controller.handle event d.media
  { d with controller, media }

/-- Does one action. -/
def step (d : Deck) : Action → Answer × Deck
  | .install tracks =>
    let set : ResultSet := ⟨d.sets.length, tracks⟩
    (.installed tracks.length,
      { d with sets := d.sets ++ [set], controller := d.controller.setResults set })
  | .reinstall number =>
    match d.sets[number]? with
    | some set =>
      (.installed set.tracks.length, { d with controller := d.controller.setResults set })
    | none => (.noSuchSet, d)
  | .play id =>
    match d.find? id with
    | some e =>
      let (controller, media) := d.controller.play e d.media
      (.done, { d with controller, media })
    | none => (.noSuchTrack, d)
  | .reject id =>
    match d.find? id with
    | some e => (.done, { d with controller := d.controller.startRejected e })
    | none => (.noSuchTrack, d)
  | .settle session =>
    match d.controller.takePending with
    | (some pending, controller) => { d with controller }.settle pending session
    | (none, _) => (.nothingPending, d)
  | .hold =>
    match d.controller.takePending with
    | (some pending, controller) =>
      (.held pending.entry.track, { d with controller, held := d.held ++ [some pending] })
    | (none, _) => (.nothingPending, d)
  | .settleHeld slot session =>
    match d.held[slot]? with
    | some (some pending) => { d with held := d.held.set slot none }.settle pending session
    | _ => (.nothingHeld, d)
  | .change c => (.done, { d with media := d.media.change c })
  | .event event audience =>
    match audience with
    | .transport => (.done, d.tellTransport event)
    | .controller => (.done, d.tellController event)
    | .both => (.done, (d.tellTransport event).tellController event)
  | .pressPlay =>
    match d.media.play with
    | (.settled outcome, media) => (.pressed outcome, { d with media })
    | (.deferred _, media) => (.pending, { d with media })
  | .pressPause => (.done, { d with media := d.media.pause })

/-- Does several actions, one after the other. -/
def run (d : Deck) (actions : List Action) : Deck := actions.foldl (fun d a => (d.step a).2) d

end Deck

end LibraryPlayer
