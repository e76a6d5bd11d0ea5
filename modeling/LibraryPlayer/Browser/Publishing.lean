import LibraryPlayer.Browser.Basic

/-! # Publishing to the media session

What is playing is published by building a metadata object, field by field, and giving it to the
session.  Whatever is refused on the way ends the attempt with a failure.
-/

namespace LibraryPlayer.Browser

/-- Whether the navigator has a media session. -/
def isAvailable (b : Browser) : Bool :=
  b.hasWindow && !b.refusals.has.contains "mediaSession" && b.sessionProperty != .missing

/-- The session refuses, with what is thrown just now. -/
def sessionFailure (b : Browser) : PlaybackFailure := .session b.complaint

/-- Writes a property of an object. -/
def setProperty (b : Browser) (name : String) : Outcome :=
  if b.refusals.set.contains name then .error b.sessionFailure else .ok ()

/-- Whether there is a session object to publish to. -/
def checkSession (b : Browser) : Outcome :=
  if !b.hasWindow then .error .unavailable
  else if b.refusals.get.contains "mediaSession" then .error b.sessionFailure
  else if b.sessionProperty = .object then .ok ()
  else .error .unavailable

/-- Whether the constructor of metadata is there. -/
def checkConstructor (b : Browser) : Outcome :=
  if b.refusals.get.contains "MediaMetadata" || b.metadataProperty = .missing then
    .error (.session "MediaMetadata is missing")
  else .ok ()

/-- Constructs the metadata. -/
def construct (b : Browser) : Outcome :=
  if b.metadataProperty = .throwing then .error b.sessionFailure else .ok ()

/-- The properties that are written to describe what is playing, in order. -/
def propertiesOf (n : NowPlaying) : List String :=
  n.artwork.flatMap (fun _ => ["src", "sizes"]) ++ ["title", "artist", "album", "artwork"]

/-- How an attempt to publish comes out. -/
def publishOutcome (b : Browser) (n : NowPlaying) : Outcome := do
  b.checkSession
  b.checkConstructor
  (propertiesOf n).forM b.setProperty
  b.construct
  b.setProperty "metadata"

/-- Tells the session what is playing. -/
def publish (b : Browser) (n : NowPlaying) : Outcome × Browser :=
  match b.publishOutcome n with
  | .ok () => (.ok (), { b with published := b.published ++ [n] })
  | .error f => (.error f, b)

end LibraryPlayer.Browser
