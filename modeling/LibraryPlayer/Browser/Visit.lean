import LibraryPlayer.Browser.Audio
import LibraryPlayer.Browser.Listening
import LibraryPlayer.Browser.Publishing

/-! # A visit

A page in a browser: it holds the audio element that it has attached, and remembers which of its
open starts it has already seen the outcome of.
-/

namespace LibraryPlayer

/-- A page in a browser. -/
structure Visit where
  browser : Browser := {}
  /-- The audio element that the page holds. -/
  audio : Option Nat := none
  /-- The starts that were left open and whose outcome the page has taken. -/
  taken : List Nat := []

namespace Visit

/-- What a page can do in its browser, and what can happen there. -/
inductive Action where
  /-- The browser changes. -/
  | change (change : Browser → Browser)
  | attach
  | adopt (id : String)
  | load (location : String)
  | pause
  | read
  | play
  /-- A promise to start is kept, or broken for a reason. -/
  | resolve (index : Nat) (reason : Option String)
  /-- Asks for the outcome of a start that was left open. -/
  | poll (index : Nat)
  | bind (nested : Option String)
  | fire (event : String)
  | available
  | publish (track : Track)

/-- What comes of it. -/
inductive Answer where
  | done
  | notAttached
  /-- Whether the page has its audio element now, and whether it is the one it had before. -/
  | attached (success same : Bool)
  | reading (reading : Reading)
  | outcome (outcome : Outcome)
  | pending
  /-- The outcome has been taken before. -/
  | taken
  | noSuchPlay
  | truth (value : Bool)

/-- Whether only a page that holds its audio element can do this. -/
def Action.needsAudio : Action → Bool
  | adopt _ | load _ | pause | read | play | poll _ | bind _ => true
  | change _ | attach | resolve _ _ | fire _ | available | publish _ => false

/-- Asks for the outcome of a start that was left open: it can be taken once. -/
def poll (v : Visit) (index : Nat) : Answer × Visit :=
  match v.browser.promises[index]? with
  | none => (.noSuchPlay, v)
  | some promise =>
    if v.taken.contains index then (.taken, v)
    else match v.browser.outcome? promise with
      | none => (.pending, v)
      | some o => (.outcome o, { v with taken := index :: v.taken })

/-- Does one thing.  The list holds the events that handlers have seen meanwhile. -/
def step (v : Visit) (action : Action) : Answer × List String × Visit :=
  if action.needsAudio && v.audio.isNone then (.notAttached, [], v)
  else match action with
    | .change f => (.done, [], { v with browser := f v.browser })
    | .attach =>
      match v.browser.attach with
      | (some index, browser) =>
        (.attached true (v.audio = some index), [], { v with browser, audio := some index })
      | (none, browser) => (.attached false false, [], { v with browser })
    | .adopt id => (.done, [], { v with browser := v.browser.adopt id })
    | .load location => (.done, [], { v with browser := v.browser.load location })
    | .pause => (.done, [], { v with browser := v.browser.pause })
    | .read => (.reading v.browser.read, [], v)
    | .play =>
      match v.browser.play with
      | (.settled o, browser) => (.outcome o, [], { v with browser })
      | (.deferred _, browser) => (.pending, [], { v with browser })
    | .resolve index reason =>
      let (found, browser) := v.browser.resolve index reason
      (.truth found, [], { v with browser })
    | .poll index =>
      let (answer, v) := v.poll index
      (answer, [], v)
    | .bind nested => (.done, [], { v with browser := v.browser.bind nested })
    | .fire event => (.truth (v.browser.hasListener event), v.browser.fire event, v)
    | .available => (.truth v.browser.isAvailable, [], v)
    | .publish track =>
      let (o, browser) := v.browser.publish (.ofTrack track)
      (.outcome o, [], { v with browser })

end Visit

end LibraryPlayer
