import LibraryPlayer.Playback.Event
import LibraryPlayer.Playback.Media
import LibraryPlayer.Playback.Queue

/-! # The controller

The controller knows which entry is playing and what comes next.  Its `pointer` is the entry it
started last; its `marked` entry is the one whose row claims to play.  A start that has been asked
for is parked in `pending` until somebody collects it, and a newer one takes its place.
-/

namespace LibraryPlayer

/-- A start whose outcome nobody has looked at. -/
structure PendingStart where
  entry : Entry
  start : Start

/-- The controller's state. -/
structure Controller where
  results : ResultSet := {}
  /-- The entry that was started last, until it has ended. -/
  pointer : Option Entry := none
  /-- The entry whose row shows the playing marker. -/
  marked : Option Entry := none
  pending : Option PendingStart := none

namespace Controller

/-- Whether an entry's row shows the playing marker. -/
def isMarked (c : Controller) (e : Entry) : Bool := c.marked.any (·.same e)

/-- Takes over new results.  The marker never carries over to them. -/
def setResults (c : Controller) (results : ResultSet) : Controller :=
  { c with marked := none, results }

/-- Loads an entry's audio and asks for it to start. -/
def play {μ : Type} [Media μ] (c : Controller) (e : Entry) (media : μ) : Controller × μ :=
  let (start, media) := Media.play (Media.load e.track.audioPath media)
  ({ c with marked := some e, pointer := some e, pending := some ⟨e, start⟩ }, media)

/-- Collects the parked start, if there is one. -/
def takePending (c : Controller) : Option PendingStart × Controller :=
  (c.pending, { c with pending := none })

/-- A start of an entry was refused: its row no longer claims to play. -/
def startRejected (c : Controller) (e : Entry) : Controller :=
  if c.pointer.any (·.same e) then { c with marked := none } else c

/-- When an entry has ended, the next one of the list starts; there is none after the last, nor
when the list has been replaced. -/
def advance {μ : Type} [Media μ] (c : Controller) (media : μ) : Controller × μ :=
  let stopped := { c with marked := none, pointer := none }
  match c.pointer.bind c.results.following? with
  | some e => stopped.play e media
  | none => (stopped, media)

/-- What an event does. -/
def handle {μ : Type} [Media μ] (c : Controller) (event : MediaEvent) (media : μ) :
    Controller × μ :=
  match event with
  | .playing => ({ c with marked := c.pointer.or c.marked }, media)
  | .pause => ({ c with marked := if c.pointer.isSome then none else c.marked }, media)
  | .ended => c.advance media
  | .durationChange | .timeUpdate | .progress => (c, media)

end Controller

end LibraryPlayer
