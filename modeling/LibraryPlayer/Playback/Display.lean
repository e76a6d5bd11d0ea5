import LibraryPlayer.Playback.Bar
import LibraryPlayer.Playback.Event
import LibraryPlayer.Playback.TimeLabel

/-! # The transport display

What the transport shows is derived from what the media reports, a part at a time: each event says
which of the two parts, mode and times, are shown anew (`renders`).  A view that keeps the last of
each (`Display.draw`) therefore holds a true snapshot of each part.
-/

namespace LibraryPlayer

/-- The three looks of the transport. -/
inductive PlayerMode where
  /-- Nothing is loaded, or its duration is unknown. -/
  | disabled
  | paused
  | playing
  deriving DecidableEq, Repr

/-- Which parts of the transport are visible. -/
structure Controls where
  play : Bool
  pause : Bool
  disabled : Bool
  times : Bool
  deriving DecidableEq

namespace PlayerMode

/-- The look for a duration and a paused flag. -/
def derive (duration : Option Binary64) (paused : Bool) : PlayerMode :=
  match duration with
  | some d => if d.isNaN then disabled else if paused then PlayerMode.paused else playing
  | none => disabled

/-- What is visible in each look. -/
def controls : PlayerMode → Controls
  | disabled => { play := false, pause := false, disabled := true, times := false }
  | paused => { play := true, pause := false, disabled := false, times := true }
  | playing => { play := false, pause := true, disabled := false, times := true }

end PlayerMode

/-- Time labels and bar widths. -/
structure Times where
  current : String
  total : String
  played : String
  loaded : String
  deriving DecidableEq

/-- The labels and widths for what the media reports. -/
def Times.derive (r : Reading) : Times where
  current := timeLabel r.position
  total := timeLabel r.duration
  played := barWidth r.position r.duration
  loaded := barWidth (some (bufferedEnd r.buffered)) r.duration

/-- Everything that the transport shows. -/
structure Display where
  mode : PlayerMode
  times : Times
  deriving DecidableEq

/-- One part shown anew. -/
inductive Render where
  | mode (mode : PlayerMode)
  | times (times : Times)
  deriving DecidableEq

namespace Display

/-- What is shown for what the media reports. -/
def derive (r : Reading) : Display where
  mode := .derive r.duration r.paused
  times := .derive r

/-- What is shown while no media is known. -/
def initial : Display := derive {}

/-- The display after one part has been shown anew.  A part that stays the same is not written. -/
def draw (d : Display) : Render → Display
  | .mode m => if d.mode = m then d else { d with mode := m }
  | .times t => if d.times = t then d else { d with times := t }

end Display

/-- What is shown first: both parts, so that media which is already loaded shows correctly. -/
def firstRenders (r : Reading) : List Render :=
  [.mode (.derive r.duration r.paused), .times (.derive r)]

/-- What an event shows anew, from what the media reports just then. -/
def MediaEvent.renders (e : MediaEvent) (r : Reading) : List Render :=
  match e with
  | playing | pause | ended => [.mode (.derive r.duration r.paused)]
  | durationChange => [.mode (.derive r.duration r.paused), .times (.derive r)]
  | timeUpdate | progress => [.times (.derive r)]

end LibraryPlayer
