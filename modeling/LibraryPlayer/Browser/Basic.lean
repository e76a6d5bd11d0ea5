import LibraryPlayer.Playback.Media
import LibraryPlayer.Playback.NowPlaying

/-! # The browser

The page reaches its audio element and the media session through a browser in which almost
anything can be missing or refuse to work.  This module holds the state of the browser, the values
that scripts throw and how they are described, and what the page is seen to do.
-/

namespace LibraryPlayer

/-- A value that a script throws. -/
inductive Thrown where
  /-- An object, with its `name` if that is a text. -/
  | object (name : Option String)
  | text (content : String)
  /-- A number, or nothing at all. -/
  | other
  deriving DecidableEq

/-- The error that browsers throw for a wrong type. -/
def Thrown.typeError : Thrown := .object (some "TypeError")

/-- What the page does to the browser. -/
inductive Deed where
  | create (tag : String)
  | identify (id : String)
  | setAttribute (name value : String)
  | appendToBody
  | appendTo (id : String)
  | source (location : String)
  | play
  | pause
  | listen (event : String)
  deriving DecidableEq

/-- The line that records a deed. -/
def Deed.line : Deed → String
  | create tag => "create " ++ tag
  | identify id => "id " ++ id
  | setAttribute name value => "attribute " ++ name ++ "=" ++ value
  | appendToBody => "append body"
  | appendTo id => "append #" ++ id
  | source location => "src " ++ location
  | play => "play"
  | pause => "pause"
  | listen event => "listen " ++ event

/-- What comes of asking for a new element. -/
inductive Creation where
  /-- An element with the tag that was asked for. -/
  | obliging
  /-- An element with another tag. -/
  | other (tag : String)
  | throwing
  deriving DecidableEq

/-- What comes of asking the audio element to play. -/
inductive PlayReply where
  /-- It starts. -/
  | accept
  /-- It promises to start, and breaks the promise with an error of the given name, or with
  whatever is thrown just then. -/
  | reject (name : Option String)
  /-- It refuses at once. -/
  | throwing
  /-- It promises to start, and leaves it at that. -/
  | defer
  deriving DecidableEq

/-- The `mediaSession` property of the navigator. -/
inductive SessionProperty where
  /-- There is no such property. -/
  | missing
  /-- The property is there and holds `undefined` or `null`. -/
  | empty
  | object
  deriving DecidableEq

/-- The `MediaMetadata` property of the window. -/
inductive MetadataProperty where
  /-- It is missing, or no function. -/
  | missing
  /-- A constructor that throws. -/
  | throwing
  | constructor
  deriving DecidableEq

/-- A promise to start that was left open, and what has come of it. -/
inductive Promise where
  | pending
  | kept
  | broken (thrown : Thrown)
  deriving DecidableEq

/-- A handler that has been bound to the audio element. -/
structure Handler where
  /-- The events that it is bound to. -/
  events : List String
  /-- An event that it fires in its turn before it returns. -/
  nested : Option String
  deriving DecidableEq

/-- What the browser refuses. -/
structure Refusals where
  /-- Whether setting an attribute throws. -/
  attributes : Bool := false
  /-- Whether appending an element throws. -/
  append : Bool := false
  /-- Whether pausing throws. -/
  pause : Bool := false
  /-- The spans whose start cannot be read. -/
  spanStarts : List Nat := []
  /-- The spans whose end cannot be read. -/
  spanStops : List Nat := []
  /-- The events that cannot be listened to. -/
  listen : List String := []
  /-- The properties that cannot be looked for. -/
  has : List String := []
  /-- The properties that cannot be read. -/
  get : List String := []
  /-- The properties that cannot be written. -/
  set : List String := []
  deriving DecidableEq

/-- The state of the browser. -/
structure Browser where
  hasWindow : Bool := true
  hasDocument : Bool := true
  hasBody : Bool := true
  /-- The tags of the elements with the audio element's identifier, in document order. -/
  elements : List String := []
  /-- The identifiers of the containers in the document. -/
  containers : List String := ["player"]
  creation : Creation := .obliging
  playReply : PlayReply := .accept
  /-- What the platform offers, whatever the two properties say. -/
  platform : Session := .working
  /-- The `mediaSession` property on a platform that has a session. -/
  session : SessionProperty := .object
  /-- The `MediaMetadata` property on a platform whose session takes updates. -/
  metadata : MetadataProperty := .constructor
  refusals : Refusals := {}
  /-- What is thrown wherever something throws. -/
  thrown : Thrown := .typeError
  /-- What the audio element reports. -/
  reading : Reading := {}
  /-- The promises that were left open, oldest first. -/
  promises : List Promise := []
  /-- The handlers bound to the audio element, oldest first. -/
  handlers : List Handler := []
  /-- What the page has done, oldest first. -/
  log : List Deed := []
  /-- What the media session shows, oldest first. -/
  published : List NowPlaying := []

namespace Browser

/-- Records a deed. -/
def note (b : Browser) (deed : Deed) : Browser := { b with log := b.log ++ [deed] }

/-- How a thrown value is described: by its name, or by itself if it is a text. -/
def describe (b : Browser) : Thrown → String
  | .object name => if b.refusals.get.contains "name" then unknown else name.getD unknown
  | .text content => content
  | .other => unknown
where
  /-- The description of a value that says nothing about itself. -/
  unknown : String := "unknown error"

/-- The description of what is thrown just now. -/
def complaint (b : Browser) : String := b.describe b.thrown

/-- The `mediaSession` property that scripts find: none on a platform without a session. -/
def sessionProperty (b : Browser) : SessionProperty :=
  if b.platform = .absent then .missing else b.session

/-- The `MediaMetadata` property that scripts find: none on a platform whose session takes no
updates. -/
def metadataProperty (b : Browser) : MetadataProperty :=
  if b.platform = .failing then .missing else b.metadata

/-- Whether there is a document to work on. -/
def hasPage (b : Browser) : Bool := b.hasWindow && b.hasDocument

end Browser

end LibraryPlayer
