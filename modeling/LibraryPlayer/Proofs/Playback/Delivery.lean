import LibraryPlayer.Playback.Deck
import LibraryPlayer.Proofs.Playback.Recording

/-!
# The order of delivery

An event reaches two observers that share one element: the transport reads the element, and the
controller may load and start another entry on it.  A `Delivery` says which of the two is told
first, and whether the controller is told at all of events that are not about playing;
`runDelivered` runs a deck with a delivery of its own for each event.

The controller reads nothing of what the transport does, so every run goes as one that tells the
transport first and both of everything, apart from what has been shown (`Likewise`).  Of that, the
times are always the same.  The mode depends on the order only when an end makes the controller go
on, for then one transport looks at the element before it is loaded and the other one after
(`modeShown_of_advance`); the next event that shows the mode anew clears this up again.

* `delivery_indifferent`: what two runs with different deliveries have in common.
-/

namespace LibraryPlayer

/-! ## What is shown last -/

/-- The mode that a render shows, if it shows one. -/
def Render.mode? : Render → Option PlayerMode
  | .mode m => some m
  | .times _ => none

/-- The times that a render shows, if it shows any. -/
def Render.times? : Render → Option Times
  | .mode _ => none
  | .times t => some t

/-- The mode that is shown last. -/
def lastMode (shown : List Render) : Option PlayerMode := (shown.filterMap Render.mode?).getLast?

/-- The times that are shown last. -/
def lastTimes (shown : List Render) : Option Times := (shown.filterMap Render.times?).getLast?

/-- What is shown later decides, if it shows a mode at all. -/
theorem lastMode_append (xs ys : List Render) :
    lastMode (xs ++ ys) = (lastMode ys).or (lastMode xs) := by
  rw [lastMode, List.filterMap_append, List.getLast?_append]
  rfl

/-- What is shown later decides, if it shows times at all. -/
theorem lastTimes_append (xs ys : List Render) :
    lastTimes (xs ++ ys) = (lastTimes ys).or (lastTimes xs) := by
  rw [lastTimes, List.filterMap_append, List.getLast?_append]
  rfl

/-- Whether an event shows the mode anew. -/
def MediaEvent.showsMode : MediaEvent → Bool
  | playing | pause | ended | durationChange => true
  | timeUpdate | progress => false

/-- An event that shows the mode shows the one that the element has then. -/
theorem lastMode_renders (e : MediaEvent) (r : Reading) :
    lastMode (e.renders r) =
      if e.showsMode then some (.derive r.duration r.paused) else none := by
  cases e <;> rfl

/-- An event about playing shows no times. -/
theorem lastTimes_renders_of_transport {e : MediaEvent} (h : e.isTransport = true) (r : Reading) :
    lastTimes (e.renders r) = none := by
  -- three events are about playing, and each of them shows the mode only
  cases e with
  | playing => rfl
  | pause => rfl
  | ended => rfl
  | durationChange => exact nomatch h
  | timeUpdate => exact nomatch h
  | progress => exact nomatch h

/-- A controller works its media only to start an entry. -/
theorem Controller.handle_media {μ : Type} [Media μ] {c : Controller} {e : MediaEvent}
    (h : c.started? (.event e : Call μ) = none) (media : μ) : (c.handle e media).2 = media := by
  cases e with
  | ended =>
    have hnext : c.pointer.bind c.results.following? = none := h
    rw [handle, advance, hnext]
  | _ => rfl

/-- An element is loaded with the entry that the controller goes on to, and not yet known how long
that is. -/
theorem Controller.advance_duration {c : Controller} (media : Element)
    (h : (c.pointer.bind c.results.following?).isSome = true) :
    (c.advance media).2.reading.duration = none := by
  obtain ⟨e, he⟩ := Option.isSome_iff_exists.1 h
  rw [advance, he]
  -- a play may be refused or not, and neither tells how long the entry is
  show (Element.play (media.load e.track.audioPath)).2.reading.duration = none
  rw [Element.play]
  split <;> rfl

namespace Deck

/-- The mode that the transport of a deck has shown last. -/
def modeShown (d : Deck) : Option PlayerMode := lastMode d.shown

/-- The times that the transport of a deck has shown last. -/
def timesShown (d : Deck) : Option Times := lastTimes d.shown

/-! ## Deliveries -/

/-- How an event is delivered to the two observers. -/
structure Delivery where
  /-- Whether the controller is told before the transport. -/
  controllerFirst : Bool
  /-- Whether the controller is told of events that are not about playing. -/
  tellsAll : Bool

/-- Who is told of an event, one after the other. -/
def Delivery.audiences (v : Delivery) (e : MediaEvent) : List Audience :=
  if e.isTransport || v.tellsAll then
    if v.controllerFirst then [.controller, .transport] else [.transport, .controller]
  else [.transport]

/-- The actions by which one action is carried out, if events for both observers are delivered to
one of them at a time. -/
def Action.delivered (v : Delivery) : Action → List Action
  | .event e .both => (v.audiences e).map (.event e)
  | a => [a]

/-- Does several actions, one after the other, with a delivery for each. -/
def runDelivered (d : Deck) (how : Nat → Delivery) : List Action → Deck
  | [] => d
  | a :: actions => (d.run (a.delivered (how 0))).runDelivered (fun i => how (i + 1)) actions

/-- Whether the controller would go on to another entry at an end. -/
def advances (d : Deck) : Bool := (d.controller.pointer.bind d.controller.results.following?).isSome

/-- Whether the mode that is shown may depend on the order of delivery after an action, given
whether it may before. -/
def inDoubtAfter (d : Deck) (doubt : Bool) : Action → Bool
  | .event e audience =>
    match audience with
    | .transport => doubt && !e.showsMode
    | .controller => doubt
    | .both => doubt && !e.showsMode || e == .ended && d.advances
  | _ => doubt

/-- Whether the mode that is shown may depend on the order of delivery at the end of a run, given
whether it may at its beginning: it may from an end with which the controller goes on until the
transport is told of an event that shows the mode anew and is no such end. -/
def inDoubt (d : Deck) (doubt : Bool) : List Action → Bool
  | [] => doubt
  | a :: actions => (d.step a).2.inDoubt (d.inDoubtAfter doubt a) actions

/-! ## Decks that differ in what they have shown -/

/-- The deck with another record of what its transport has shown. -/
def showing (d : Deck) (shown : List Render) : Deck := { d with shown }

/-- Whether an action delivers an event. -/
def Action.isEvent : Action → Bool
  | .event _ _ => true
  | _ => false

/-- Settling a start has nothing to do with what is shown. -/
@[simp] theorem settle_showing (d : Deck) (shown : List Render) (pending : PendingStart)
    (session : Session) :
    ((d.showing shown).settle pending session).2 = (d.settle pending session).2.showing shown := by
  simp only [settle]
  split <;> rfl

/-- Nothing but an event has to do with what is shown. -/
theorem step_showing (d : Deck) (shown : List Render) {a : Action} (ha : a.isEvent = false) :
    ((d.showing shown).step a).2 = (d.step a).2.showing shown := by
  cases a with
  | event e audience => exact nomatch ha
  | install tracks => rfl
  | change c => rfl
  | pressPause => rfl
  | reinstall number =>
    simp only [step, showing]
    split <;> rfl
  | play id =>
    have hfind : (d.showing shown).find? id = d.find? id := rfl
    simp only [step, hfind]
    split <;> rfl
  | reject id =>
    have hfind : (d.showing shown).find? id = d.find? id := rfl
    simp only [step, hfind]
    split <;> rfl
  -- a start is taken out of the mailbox before it is settled, so the decks agree on it first
  | settle session =>
    cases h : d.controller.pending with
    | none =>
      have htaken := Controller.takePending_of_none h
      simp only [step, showing, htaken]
    | some pending =>
      have htaken := Controller.takePending_of_some h
      simp only [step, showing]
      rw [htaken]
      exact settle_showing { d with controller := d.controller.takePending.2 } shown pending session
  | hold =>
    simp only [step, showing]
    split <;> rfl
  | settleHeld slot session =>
    simp only [step, showing]
    split
    next pending _ =>
      exact settle_showing { d with held := d.held.set slot none } shown pending session
    next => rfl
  | pressPlay =>
    simp only [step, showing]
    split <;> rfl

/-- Of an event that is not about playing the controller takes no notice. -/
theorem tellController_of_not_transport (d : Deck) {e : MediaEvent} (h : e.isTransport = false) :
    d.tellController e = d := by
  cases e with
  | playing => exact nomatch h
  | pause => exact nomatch h
  | ended => exact nomatch h
  | _ => rfl

/-! ## One step -/

/-- A deck goes as another one does, apart from what has been shown: of that, the times that were
shown last are the same, and so is the mode unless it is in doubt. -/
structure Likewise (d : Deck) (doubt : Bool) (d' : Deck) : Prop where
  rest : d' = d.showing d'.shown
  times : d'.timesShown = d.timesShown
  mode : doubt = false → d'.modeShown = d.modeShown

variable {d d' : Deck} {doubt : Bool}

/-- A deck goes as itself, in doubt or not. -/
theorem Likewise.refl (d : Deck) (doubt : Bool) : d.Likewise doubt d := ⟨rfl, rfl, fun _ => rfl⟩

/-- Decks that go alike have one element in common. -/
theorem Likewise.media (h : d.Likewise doubt d') : d'.media = d.media := by
  rw [h.rest]
  rfl

/-- An action that is no event goes alike on both, and shows nothing. -/
theorem Likewise.step_of_not_event (h : d.Likewise doubt d') {a : Action}
    (ha : a.isEvent = false) : (d.step a).2.Likewise doubt (d'.step a).2 := by
  -- what is shown can be put back in after the action
  have hshown (e : Deck) : (e.step a).2.shown = e.shown := by
    have hstep : (e.step a).2.shown = ((e.step a).2.showing e.shown).shown :=
      congrArg Deck.shown (e.step_showing e.shown ha)
    exact hstep
  refine ⟨?_, ?_, fun hdoubt => ?_⟩
  · have hstep : (d'.step a).2 = ((d.showing d'.shown).step a).2 := by rw [← h.rest]
    rw [hstep, step_showing d d'.shown ha]
    rfl
  · rw [timesShown, timesShown, hshown, hshown]
    exact h.times
  · rw [modeShown, modeShown, hshown, hshown]
    exact h.mode hdoubt

/-- Both transports, told of an event, show the same. -/
theorem Likewise.tellTransport (h : d.Likewise doubt d') (e : MediaEvent) :
    (d.tellTransport e).Likewise (doubt && !e.showsMode) (d'.tellTransport e) := by
  have hmedia := h.media
  refine ⟨?_, ?_, fun hdoubt => ?_⟩
  · rw [h.rest]
    rfl
  · have htimes : lastTimes d'.shown = lastTimes d.shown := h.times
    simp only [timesShown, Deck.tellTransport, lastTimes_append, hmedia, htimes]
  · simp only [modeShown, Deck.tellTransport, lastMode_append, hmedia, lastMode_renders]
    -- an event that shows the mode anew ends all doubt, any other one keeps it
    split
    · rfl
    next hshows =>
      have hkept : doubt = false := by simpa [hshows] using hdoubt
      exact h.mode hkept

/-- Both controllers, told of an event, do the same. -/
theorem Likewise.tellController (h : d.Likewise doubt d') (e : MediaEvent) :
    (d.tellController e).Likewise doubt (d'.tellController e) := by
  refine ⟨?_, h.times, h.mode⟩
  rw [h.rest]
  rfl

/-- It does not matter whether the transport is told of an event first or last, unless it is an end
with which the controller goes on: then the mode is in doubt. -/
theorem tellTransport_tellController (d : Deck) {e : MediaEvent} (he : e.isTransport = true) :
    ((d.tellTransport e).tellController e).Likewise
      (e == .ended && d.advances) ((d.tellController e).tellTransport e) := by
  refine ⟨rfl, ?_, fun hdoubt => ?_⟩
  · simp only [timesShown, Deck.tellTransport, Deck.tellController, lastTimes_append,
      lastTimes_renders_of_transport he]
  -- the only event that works the element is an end, which by assumption finds nothing to go on to
  · have hstarted : d.controller.started? (.event e : Controller.Call Element) = none := by
      cases e with
      | ended =>
        have hstays : d.advances = false := hdoubt
        exact Option.not_isSome_iff_eq_none.1 (Bool.eq_false_iff.1 hstays)
      | _ => rfl
    have hmedia := Controller.handle_media hstarted d.media
    simp only [modeShown, Deck.tellTransport, Deck.tellController, lastMode_append, hmedia]

/-- More doubt asks for less. -/
theorem Likewise.mono (h : d.Likewise doubt d') {doubt' : Bool}
    (hdoubt : doubt' = false → doubt = false) : d.Likewise doubt' d' :=
  ⟨h.rest, h.times, fun hd => h.mode (hdoubt hd)⟩

/-- The mode is in doubt if it is on either of two ways. -/
theorem Likewise.trans {d'' : Deck} {doubt' : Bool} (h : d.Likewise doubt d')
    (h' : d'.Likewise doubt' d'') : d.Likewise (doubt || doubt') d'' := by
  refine ⟨?_, h'.times.trans h.times, fun hdoubt => ?_⟩
  · rw [h'.rest, h.rest]
    rfl
  · rw [Bool.or_eq_false_iff] at hdoubt
    exact (h'.mode hdoubt.2).trans (h.mode hdoubt.1)

/-- An event for both goes alike, however it is delivered to the second deck. -/
theorem Likewise.deliver (h : d.Likewise doubt d') (v : Delivery) (e : MediaEvent) :
    ((d.tellTransport e).tellController e).Likewise
      (doubt && !e.showsMode || e == .ended && d.advances)
      (d'.run ((v.audiences e).map (.event e))) := by
  have hfirst := (h.tellTransport e).tellController e
  -- of an event about playing both observers are told, and the second deck may tell them in the
  -- other order
  cases he : e.isTransport with
  | true =>
    cases hv : v.controllerFirst with
    | false =>
      simp only [Delivery.audiences, he, hv]
      exact hfirst.mono fun hdoubt => (Bool.or_eq_false_iff.1 hdoubt).1
    | true =>
      have hadvances : d'.advances = d.advances := by
        rw [h.rest]
        rfl
      have hlast := hfirst.trans (d'.tellTransport_tellController he)
      rw [hadvances] at hlast
      simp only [Delivery.audiences, he, hv]
      exact hlast
  | false =>
    -- the controller takes no notice, so it does not matter whether and when it is told
    have htransport : d'.run ((v.audiences e).map (.event e)) = d'.tellTransport e := by
      have hignored (x : Deck) : x.tellController e = x := x.tellController_of_not_transport he
      simp only [Delivery.audiences, he, Bool.false_or]
      split
      · split
        · show (d'.tellController e).tellTransport e = d'.tellTransport e
          rw [hignored]
        · exact hignored (d'.tellTransport e)
      · rfl
    rw [htransport, tellController_of_not_transport _ he]
    exact (h.tellTransport e).mono fun hdoubt => (Bool.or_eq_false_iff.1 hdoubt).1

/-- An action goes alike on both, however its event is delivered to the second one. -/
theorem Likewise.step (h : d.Likewise doubt d') (v : Delivery) (a : Action) :
    (d.step a).2.Likewise (d.inDoubtAfter doubt a) (d'.run (a.delivered v)) := by
  cases a with
  | event e audience =>
    cases audience with
    | transport => exact h.tellTransport e
    | controller => exact h.tellController e
    | both => exact h.deliver v e
  | _ => exact h.step_of_not_event rfl

/-! ## Runs -/

/-- A run with any deliveries goes as the one that tells both observers of everything, and the
transport first. -/
theorem Likewise.run (h : d.Likewise doubt d') (how : Nat → Delivery) (actions : List Action) :
    (d.run actions).Likewise (d.inDoubt doubt actions) (d'.runDelivered how actions) := by
  induction actions generalizing d d' doubt how with
  | nil => exact h
  | cons a actions ih => exact ih (h.step (how 0) a) fun i => how (i + 1)

/-- A transport that is told of an event that shows the mode has shown the one that the element has.
-/
theorem modeShown_tellTransport (d : Deck) {e : MediaEvent} (h : e.showsMode = true) :
    (d.tellTransport e).modeShown =
      some (.derive d.media.reading.duration d.media.reading.paused) := by
  simp only [modeShown, tellTransport, lastMode_append, lastMode_renders, h, if_true,
    Option.some_or]

/-- What can differ when an end makes the controller go on: a transport that is told first shows
what the element reported at the end, one that is told last finds an element whose duration is not
known yet. -/
theorem modeShown_of_advance (d : Deck) (v : Delivery) (h : d.advances = true) :
    (d.run ((Action.event .ended .both).delivered v)).modeShown =
      some (if v.controllerFirst then .disabled
        else .derive d.media.reading.duration d.media.reading.paused) := by
  cases hv : v.controllerFirst with
  | false =>
    have hrun : d.run ((Action.event .ended .both).delivered v) =
        (d.tellTransport .ended).tellController .ended := by
      simp only [Action.delivered, Delivery.audiences, hv]
      rfl
    rw [hrun]
    exact d.modeShown_tellTransport rfl
  | true =>
    have hrun : d.run ((Action.event .ended .both).delivered v) =
        (d.tellController .ended).tellTransport .ended := by
      simp only [Action.delivered, Delivery.audiences, hv]
      rfl
    -- by then the controller has loaded the entry that it goes on to
    have hloaded : (d.tellController .ended).media.reading.duration = none :=
      Controller.advance_duration d.media h
    rw [hrun, modeShown_tellTransport _ rfl, hloaded]
    rfl

/-- Two runs that do the same, with events delivered in any order, and of events that are not about
playing to the controller or not.  After each action the controllers are the same, and so are the
elements with all their counts, and the times that were shown last.  So is the mode that was shown
last, unless since an end with which the controller went on no event has shown it anew. -/
theorem delivery_indifferent (d : Deck) (how how' : Nat → Delivery) (actions : List Action) :
    let x := d.runDelivered how actions
    let y := d.runDelivered how' actions
    x.controller = y.controller ∧ x.media = y.media ∧ x.sets = y.sets ∧ x.held = y.held ∧
      x.published = y.published ∧ x.timesShown = y.timesShown ∧
      (d.inDoubt false actions = false → x.modeShown = y.modeShown) := by
  intro x y
  have hx : (d.run actions).Likewise (d.inDoubt false actions) x :=
    (Likewise.refl d false).run how actions
  have hy : (d.run actions).Likewise (d.inDoubt false actions) y :=
    (Likewise.refl d false).run how' actions
  -- both runs are compared with the one that always tells the transport first
  have hxy : x = y.showing x.shown := by
    rw [hx.rest, hy.rest]
    rfl
  refine ⟨?_, ?_, ?_, ?_, ?_, hx.times.trans hy.times.symm, fun hdoubt => ?_⟩
  · rw [hxy]
    rfl
  · rw [hxy]
    rfl
  · rw [hxy]
    rfl
  · rw [hxy]
    rfl
  · rw [hxy]
    rfl
  · exact (hx.mode hdoubt).trans (hy.mode hdoubt).symm

/-- The first of two entries ends.  A transport that is told of it first goes on showing that it
plays, one that is told of it last shows that nothing is loaded; when the second entry plays, both
show the same again. -/
theorem delivery_indifferent_once_playing :
    let d := Deck.ofElement {}
    let actions : List Action := [.install [{ id := 1 }, { id := 2 }], .play ⟨0, 0⟩,
      .change { duration := some (some (.ofNat 180)) }, .event .durationChange .both,
      .event .ended .both]
    let transportFirst : Nat → Delivery := fun _ => ⟨false, false⟩
    let controllerFirst : Nat → Delivery := fun _ => ⟨true, true⟩
    (d.runDelivered transportFirst actions).modeShown = some .playing ∧
    (d.runDelivered controllerFirst actions).modeShown = some .disabled ∧
    d.inDoubt false (actions ++ [.event .playing .both]) = false ∧
    (d.runDelivered transportFirst (actions ++ [.event .playing .both])).modeShown =
      (d.runDelivered controllerFirst (actions ++ [.event .playing .both])).modeShown := by
  intro d actions transportFirst controllerFirst
  have hsettled : d.inDoubt false (actions ++ [.event .playing .both]) = false := by
    decide +kernel
  obtain ⟨-, -, -, -, -, -, hmode⟩ := delivery_indifferent d transportFirst controllerFirst
    (actions ++ [.event .playing .both])
  exact ⟨by decide +kernel, by decide +kernel, hsettled, hmode hsettled⟩

end Deck

end LibraryPlayer
