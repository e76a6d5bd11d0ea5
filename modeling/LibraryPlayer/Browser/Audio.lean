import LibraryPlayer.Browser.Basic

/-! # The audio element

The page finds its audio element in the document by its identifier, or else creates it.  Once it
has the element, a request to play it succeeds, is refused, or stays open as a promise.
-/

namespace LibraryPlayer.Browser

/-- The identifier of the audio element. -/
def audioId : String := "beets-audio"

/-- The tag of audio elements. -/
def audioTag : String := "audio"

/-! ## The document -/

/-- What an identifier is found to belong to. -/
inductive Found where
  /-- The element at an index of the elements with the audio element's identifier. -/
  | element (index : Nat) (tag : String)
  | container

/-- Looks for an identifier in the document: the first element with it, or a container. -/
def find? (b : Browser) (id : String) : Option Found :=
  match if id = audioId then b.elements.head? else none with
  | some tag => some (.element 0 tag)
  | none => if b.containers.contains id then some .container else none

/-- The browser with one more element at the end of its document that has the audio element's
identifier. -/
def addElement (b : Browser) (tag : String) : Browser := { b with elements := b.elements ++ [tag] }

/-- Creates the audio element and appends it to the body; none as soon as something is refused. -/
def createAudio (b : Browser) : Option Nat × Browser :=
  let b := b.note (.create audioTag)
  let tag? := match b.creation with
    | .obliging => some audioTag
    | .other tag => some tag
    | .throwing => none
  if tag? ≠ some audioTag then (none, b)
  else
    let b := (b.note (.identify audioId)).note (.setAttribute "preload" "metadata")
    if b.refusals.attributes || !b.hasBody || b.refusals.append then (none, b)
    else
      (some b.elements.length, (b.note .appendToBody).addElement audioTag)

/-- Finds the audio element, or creates it.  An element that has its identifier but is no audio
element stands in the way. -/
def attach (b : Browser) : Option Nat × Browser :=
  if !b.hasPage then (none, b)
  else match b.find? audioId with
    | some (.element index tag) => (if tag = audioTag then some index else none, b)
    | some .container => (none, b)
    | none => b.createAudio

/-- Moves the audio element into what has the given identifier, if anything has. -/
def adopt (b : Browser) (id : String) : Browser :=
  if b.hasPage && (b.find? id).isSome && !b.refusals.append then b.note (.appendTo id) else b

/-! ## Reading and asking -/

/-- A number as the element reports it: what is not known is no number. -/
def reported (x : Option Binary64) : Binary64 := x.getD .nan

/-- The spans whose ends can both be read. -/
def readableSpans (b : Browser) : List Span :=
  (b.reading.buffered.zipIdx.filter fun s =>
    !b.refusals.spanStarts.contains s.2 && !b.refusals.spanStops.contains s.2).map Prod.fst

/-- What the page reads off the audio element. -/
def read (b : Browser) : Reading where
  position := some (reported b.reading.position)
  duration := some (reported b.reading.duration)
  paused := b.reading.paused
  buffered := b.readableSpans

/-- Points the audio element at a new source. -/
def load (b : Browser) (location : String) : Browser :=
  { b.note (.source location) with
    reading := { b.reading with position := some .zero, duration := none, buffered := [] } }

/-- The audio element pauses, unless it refuses to. -/
def pause (b : Browser) : Browser :=
  let b := b.note .pause
  if b.refusals.pause then b else { b with reading := { b.reading with paused := true } }

/-- The audio element is no longer paused. -/
def begun (b : Browser) : Browser := { b with reading := { b.reading with paused := false } }

/-- The failure of a start that was refused with a thrown value. -/
def refusal (b : Browser) (thrown : Thrown) : Outcome := .error (.rejected (b.describe thrown))

/-- Asks the audio element to play.  A promise that is broken at once and a refusal are the same
failure. -/
def play (b : Browser) : Start × Browser :=
  let b := b.note .play
  match b.playReply with
  | .accept => (.settled (.ok ()), b.begun)
  | .reject none => (.settled (b.refusal b.thrown), b)
  | .reject (some name) => (.settled (b.refusal (.object (some name))), b)
  | .throwing => (.settled (b.refusal b.thrown), b)
  | .defer => (.deferred b.promises.length, { b with promises := b.promises ++ [.pending] })

/-- Decides on a promise that is still open: it is kept, or broken for a reason.  False if there is
no such promise. -/
def resolve (b : Browser) (index : Nat) (reason : Option String) : Bool × Browser :=
  match b.promises[index]? with
  | some .pending =>
    match reason with
    | none => (true, { b.begun with promises := b.promises.set index .kept })
    | some r => (true, { b with promises := b.promises.set index (.broken (.object (some r))) })
  | _ => (false, b)

/-- What has come of a promise; none while it is open. -/
def outcome? (b : Browser) : Promise → Option Outcome
  | .pending => none
  | .kept => some (.ok ())
  | .broken thrown => some (b.refusal thrown)

end LibraryPlayer.Browser
