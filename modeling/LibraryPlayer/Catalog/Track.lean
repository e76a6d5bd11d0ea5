import LibraryPlayer.Number.Binary64
import LibraryPlayer.Text.Blank

/-! # Tracks

One item of the music catalog and what follows from it: where its audio and its cover are found,
its page in the recording database, and how its place on the album is written.
-/

namespace LibraryPlayer

/-- An item of the catalog. -/
structure Track where
  id : UInt64
  title : String := ""
  artist : String := ""
  album : String := ""
  albumId : Option UInt64 := none
  /-- The number on the disc. -/
  position : Option UInt32 := none
  /-- How many tracks the disc has. -/
  total : Option UInt32 := none
  disc : Option UInt32 := none
  year : Option UInt32 := none
  genre : Option String := none
  format : Option String := none
  /-- Bits per second. -/
  bitrate : Option UInt32 := none
  /-- Seconds. -/
  length : Option Binary64 := none
  /-- The identifier of the recording in the MusicBrainz database. -/
  recordingId : Option String := none
  lyrics : Option String := none
  comments : Option String := none
  deriving DecidableEq

namespace Track

/-- Where the audio is streamed from, relative to the catalog. -/
def audioPath (t : Track) : String := "item/" ++ t.id.toNat.repr ++ "/file"

/-- Where the album's cover is found, for a track that belongs to an album. -/
def coverPath? (t : Track) : Option String :=
  t.albumId.map fun a => "album/" ++ a.toNat.repr ++ "/art"

/-- The recording's page, for a track with an identifier that is not blank. -/
def recordingUrl? (t : Track) : Option String :=
  (t.recordingId.filter fun r => Text.trim r ≠ "").map fun r =>
    "https://musicbrainz.org/recording/" ++ r

/-- The place on the disc: `3/12`, or `3` where the total is not known. -/
def positionLabel? (t : Track) : Option String :=
  match t.position, t.total with
  | none, _ => none
  | some n, total =>
    if n = 0 then none
    else match total with
      | some m => if 0 < m then some (n.toNat.repr ++ "/" ++ m.toNat.repr) else some n.toNat.repr
      | none => some n.toNat.repr

/-- Whether two lengths are both unknown or the same number of seconds. -/
def sameLength : Option Binary64 → Option Binary64 → Bool
  | none, none => true
  | some x, some y => x.eq y
  | _, _ => false

/-- Whether two tracks say the same; their lengths are compared as numbers. -/
def sameContent (s t : Track) : Bool :=
  { s with length := none } == { t with length := none } && sameLength s.length t.length

end Track

end LibraryPlayer
