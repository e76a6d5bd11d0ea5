import LibraryPlayer.Catalog.Track
import LibraryPlayer.Json.Reader

/-! # Catalog replies

A reply lists tracks under the key `results`; a track is an object with the fields of `Field`, of
which only `id` must be there.  Either may also be spelled as a list of its fields in order.  Keys
that name no field are skipped, a field that comes twice is a mismatch, and so is a missing `id`.

* `Draft` is a track in the making: the content of each field that has been read.
* `Track.ofJson` and `Reply.ofJson` read a whole text.
-/

namespace LibraryPlayer

/-- The fields of a track, in the order in which a list spells them. -/
inductive Field where
  | id | title | artist | album | albumId | position | total | disc | year
  | genre | format | bitrate | length | recordingId | lyrics | comments
  deriving DecidableEq

namespace Field

/-- All fields, in order. -/
def all : List Field :=
  [id, title, artist, album, albumId, position, total, disc, year,
   genre, format, bitrate, length, recordingId, lyrics, comments]

/-- The key of a field. -/
def key : Field → String
  | id => "id"
  | title => "title"
  | artist => "artist"
  | album => "album"
  | albumId => "album_id"
  | position => "track"
  | total => "tracktotal"
  | disc => "disc"
  | year => "year"
  | genre => "genre"
  | format => "format"
  | bitrate => "bitrate"
  | length => "length"
  | recordingId => "mb_trackid"
  | lyrics => "lyrics"
  | comments => "comments"

/-- The field with a key. -/
def ofKey? (key : String) : Option Field := all.find? (·.key = key)

/-- What a field holds. -/
abbrev Content : Field → Type
  | id => UInt64
  | title | artist | album => String
  | albumId => Option UInt64
  | position | total | disc | year | bitrate => Option UInt32
  | length => Option Binary64
  | genre | format | recordingId | lyrics | comments => Option String

/-- Reads the content of a field. -/
def read : (f : Field) → Json.Bytes → Except Json.Fault (f.Content × Json.Bytes)
  | id => Json.natural64
  | title | artist | album => Json.text
  | albumId => Json.optional Json.natural64
  | position | total | disc | year | bitrate => Json.optional Json.natural32
  | length => Json.optional Json.double
  | genre | format | recordingId | lyrics | comments => Json.optional Json.text

end Field

/-- A track in the making: the contents read so far. -/
def Draft := (f : Field) → Option f.Content

namespace Draft

/-- Nothing has been read. -/
def empty : Draft := fun _ => none

/-- Notes the content of a field. -/
def set (d : Draft) (f : Field) (content : f.Content) : Draft := fun g =>
  if h : f = g then some (h ▸ content) else d g

/-- The track, once its `id` is known; other fields that were not read are empty. -/
def track? (d : Draft) : Option Track :=
  (d .id).map fun id => {
    id
    title := (d .title).getD ""
    artist := (d .artist).getD ""
    album := (d .album).getD ""
    albumId := (d .albumId).getD none
    position := (d .position).getD none
    total := (d .total).getD none
    disc := (d .disc).getD none
    year := (d .year).getD none
    genre := (d .genre).getD none
    format := (d .format).getD none
    bitrate := (d .bitrate).getD none
    length := (d .length).getD none
    recordingId := (d .recordingId).getD none
    lyrics := (d .lyrics).getD none
    comments := (d .comments).getD none }

/-- Reads fields from a list, up to its closing bracket. -/
def readList : List Field → Bool → Draft → Json.Bytes → Except Json.Fault (Draft × Json.Bytes)
  | [], _, d, s => return (d, ← Json.endList s)
  | f :: fs, first, d, s => do
    match ← Json.next Json.closeList first s with
    | .close t => return (d, t)
    | .item t =>
      let (content, t) ← f.read t
      readList fs false (d.set f content) t

/-- Reads the value of a member of an object, from its colon on. -/
def readMember (d : Draft) (key : String) (s : Json.Bytes) :
    Except Json.Fault (Draft × Json.Bytes) := do
  match Field.ofKey? key with
  | none => return (d, ← Json.skip (← Json.colon s))
  | some f =>
    if (d f).isSome then throw .mismatched
    else
      let (content, s) ← f.read (← Json.colon s)
      return (d.set f content, s)

/-- Reads fields from an object, up to its closing brace. -/
def readObject (s : Json.Bytes) : Except Json.Fault (Draft × Json.Bytes) :=
  Json.members readMember (s.length + 1) true empty s

end Draft

namespace Track

/-- Reads a track. -/
def read (s : Json.Bytes) : Except Json.Fault (Track × Json.Bytes) := do
  let (d, s) ← Json.record (Draft.readList Field.all true Draft.empty) Draft.readObject s
  match d.track? with
  | some t => return (t, s)
  | none => throw .mismatched

/-- The track that a whole text spells. -/
def ofJson (s : Json.Bytes) : Except Json.Fault Track := Json.whole read s

end Track

namespace Reply

/-- The key of the tracks. -/
def resultsKey : String := "results"

/-- Reads the tracks from a list that holds at most the list of them. -/
def readList (s : Json.Bytes) : Except Json.Fault (List Track × Json.Bytes) := do
  match ← Json.next Json.closeList true s with
  | .close t => return ([], t)
  | .item t =>
    let (tracks, t) ← Json.list Track.read t
    return (tracks, ← Json.endList t)

/-- Reads the value of a member, from its colon on; `none` stands for tracks not yet read. -/
def readMember (tracks : Option (List Track)) (key : String) (s : Json.Bytes) :
    Except Json.Fault (Option (List Track) × Json.Bytes) := do
  if key = resultsKey then
    if tracks.isSome then throw .mismatched
    else
      let (ts, s) ← Json.list Track.read (← Json.colon s)
      return (some ts, s)
  else return (tracks, ← Json.skip (← Json.colon s))

/-- Reads the tracks from an object; without `results` there are none. -/
def readObject (s : Json.Bytes) : Except Json.Fault (List Track × Json.Bytes) := do
  let (tracks, s) ← Json.members readMember (s.length + 1) true none s
  return (tracks.getD [], s)

/-- The tracks that a whole reply lists. -/
def ofJson (s : Json.Bytes) : Except Json.Fault (List Track) :=
  Json.whole (Json.record readList readObject) s

end Reply

end LibraryPlayer
