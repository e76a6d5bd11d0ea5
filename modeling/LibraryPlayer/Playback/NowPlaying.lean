import LibraryPlayer.Catalog.Track
import LibraryPlayer.Playback.Failure

/-! # The media session

Platforms show what is playing outside the page.  `NowPlaying` is what they are told about a
track.  Telling them is best effort: `Session.confirm` gives what a session shows once a start has
come out, and never changes how it came out.
-/

namespace LibraryPlayer

/-- A picture in one size. -/
structure Artwork where
  src : String
  sizes : String
  deriving DecidableEq

/-- What the platform is told about a track. -/
structure NowPlaying where
  title : String
  artist : String
  album : String
  artwork : List Artwork
  deriving DecidableEq

/-- The square sizes in which covers are offered. -/
def artworkSizes : List Nat := [96, 128, 192, 256, 384, 512]

/-- What the platform is told about a track; one without an album has no cover. -/
def NowPlaying.ofTrack (t : Track) : NowPlaying where
  title := t.title
  artist := t.artist
  album := t.album
  artwork :=
    match t.coverPath? with
    | none => []
    | some src => artworkSizes.map fun n => ⟨src, n.repr ++ "x" ++ n.repr⟩

/-- The platform's session. -/
inductive Session where
  /-- The platform has none. -/
  | absent
  /-- It has one that takes no updates. -/
  | failing
  | working
  deriving DecidableEq

namespace Session

/-- Whether there is a session to tell. -/
def isAvailable (s : Session) : Bool := s ≠ absent

/-- Tells the session what is playing. -/
def publish : Session → NowPlaying → Outcome
  | absent, _ => .error .unavailable
  | failing, _ => .error (.session "MediaMetadata is not a constructor")
  | working, _ => .ok ()

/-- What the session shows once a start of a track has come out: nothing new unless it succeeded
and the session is there and takes the update. -/
def confirm (s : Session) (t : Track) (outcome : Outcome) : Option NowPlaying :=
  match outcome with
  | .error _ => none
  | .ok () =>
    if s.isAvailable then
      match s.publish (.ofTrack t) with
      | .ok () => some (.ofTrack t)
      | .error _ => none
    else none

end Session

end LibraryPlayer
