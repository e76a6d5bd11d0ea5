import LibraryPlayer.Number.Binary64
import LibraryPlayer.Playback.Failure

/-! # Media

The one playback resource of a page.  A `Reading` is what it reports at a moment; a `Start` is its
answer to a request to play, which may still be open.  `Media` is what playback asks of the
resource, and there are two kinds of it here: an `Element`, which keeps its state and answers as
its mode says, and `Detached`, which stands for no element at all.
-/

namespace LibraryPlayer

/-- A span of media that has been received, in seconds. -/
structure Span where
  start : Binary64
  stop : Binary64
  deriving DecidableEq

/-- What the resource reports at a moment; what it does not know is missing. -/
structure Reading where
  position : Option Binary64 := none
  duration : Option Binary64 := none
  paused : Bool := true
  buffered : List Span := []
  deriving DecidableEq

/-- The answer to a request to play. -/
inductive Start where
  /-- It is known how the request came out. -/
  | settled (outcome : Outcome)
  /-- The outcome is open; the number tells open requests apart. -/
  | deferred (number : Nat)

/-- What playback asks of the resource with state `μ`. -/
class Media (μ : Type) where
  /-- What it reports. -/
  reading : μ → Reading
  /-- Points it at a new source. -/
  load : String → μ → μ
  /-- Asks it to start. -/
  play : μ → Start × μ
  /-- Pauses it. -/
  pause : μ → μ

/-! ## The element -/

/-- How an element answers a request to play. -/
inductive PlayMode where
  /-- It starts at once. -/
  | accept
  /-- It refuses, for a reason. -/
  | reject (reason : String)
  /-- It leaves the outcome open. -/
  | defer
  deriving DecidableEq

/-- A media element and what has been asked of it. -/
structure Element where
  reading : Reading := {}
  mode : PlayMode := .accept
  /-- The sources it was pointed at, oldest first. -/
  loads : List String := []
  /-- How often it was asked to play. -/
  plays : Nat := 0
  /-- How often it was asked to pause. -/
  pauses : Nat := 0
  /-- How many requests to play it has left open. -/
  deferred : Nat := 0
  deriving DecidableEq

namespace Element

/-- A new source starts at its beginning, with nothing else known of it. -/
def load (location : String) (e : Element) : Element :=
  { e with
    loads := e.loads ++ [location]
    reading := { e.reading with position := some .zero, duration := none, buffered := [] } }

/-- The element is no longer paused. -/
def begun (e : Element) : Element := { e with reading := { e.reading with paused := false } }

/-- A request to play is counted and answered as the mode says. -/
def play (e : Element) : Start × Element :=
  let e := { e with plays := e.plays + 1 }
  match e.mode with
  | .accept => (.settled (.ok ()), e.begun)
  | .reject reason => (.settled (.error (.rejected reason)), e)
  | .defer => (.deferred e.deferred, { e with deferred := e.deferred + 1 })

/-- A request to pause is counted and obeyed. -/
def pause (e : Element) : Element :=
  { e with pauses := e.pauses + 1, reading := { e.reading with paused := true } }

end Element

/-- An element that is there does all that is asked of it. -/
instance : Media Element where
  reading := Element.reading
  load := Element.load
  play := Element.play
  pause := Element.pause

/-- Changes that come to an element from outside; what is `none` stays. -/
structure ElementChange where
  position : Option (Option Binary64) := none
  duration : Option (Option Binary64) := none
  paused : Option Bool := none
  buffered : Option (List Span) := none
  mode : Option PlayMode := none

/-- The element after a change. -/
def Element.change (c : ElementChange) (e : Element) : Element :=
  { e with
    mode := c.mode.getD e.mode
    reading := {
      position := c.position.getD e.reading.position
      duration := c.duration.getD e.reading.duration
      paused := c.paused.getD e.reading.paused
      buffered := c.buffered.getD e.reading.buffered } }

/-! ## No element -/

/-- A page without an element: nothing ever loads and every request to play fails. -/
inductive Detached where
  | mk

/-- Where none is there, everything is unavailable. -/
instance : Media Detached where
  reading _ := {}
  load _ d := d
  play d := (.settled (.error .unavailable), d)
  pause d := d

end LibraryPlayer
