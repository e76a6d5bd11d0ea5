import LibraryPlayer.Browser.Basic
import LibraryPlayer.Playback.Event

/-! # Listening to the audio element

A handler is bound to every media event that can be listened to.  While it runs it takes no other
event: what is fired from inside a handler reaches only the handlers that are not running.
-/

namespace LibraryPlayer.Browser

/-- Binds a handler to the media events; `nested` is an event that it fires in its turn. -/
def bind (b : Browser) (nested : Option String) : Browser :=
  let events := (MediaEvent.all.map MediaEvent.name).filter fun e => !b.refusals.listen.contains e
  { b with
    handlers := b.handlers ++ [⟨events, nested⟩]
    log := b.log ++ events.map Deed.listen }

/-- Whether anything listens for an event. -/
def hasListener (b : Browser) (event : String) : Bool :=
  b.handlers.any fun h => h.events.contains event

/-- The events that handlers see when one is fired, in order.  `running` holds the places of the
handlers that are running, and `depth` bounds how many there can be at once. -/
def seen (handlers : List Handler) : Nat → List Nat → String → List String
  | 0, _, _ => []
  | depth + 1, running, event =>
    handlers.zipIdx.flatMap fun (h, i) =>
      if h.events.contains event && !running.contains i then
        event :: match h.nested with
          | some e => if e = event then [] else seen handlers depth (i :: running) e
          | none => []
      else []

/-- The events that handlers see when one is fired, in order. -/
def fire (b : Browser) (event : String) : List String :=
  seen b.handlers b.handlers.length [] event

end LibraryPlayer.Browser
