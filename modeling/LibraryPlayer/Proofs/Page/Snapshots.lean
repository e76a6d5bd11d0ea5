import LibraryPlayer.Proofs.Page.Sides
import LibraryPlayer.Proofs.Playback.Delivery

/-!
# True snapshots

The transport looks at its media when it is set up and whenever it is told about an event, and shows
what it sees at once: a `Look` is one such moment.  Between two looks the media may do anything.
Mode and times are not always looked at together, so what is shown at a time is a snapshot of each
part, taken at the latest look that showed it (`Display.IsSnapshot`).

A deck keeps a record of all that its transport has shown, and a page only what is shown now, which
it writes part by part and only where something is new.  Both show the same (`foldl_draw`): the last
mode and the last times of the record.

* `display_true_snapshot`: what decks and pages show after any run.
-/

namespace LibraryPlayer

/-! ## Looks -/

/-- Whether an event shows the times anew. -/
def MediaEvent.showsTimes : MediaEvent → Bool
  | durationChange | timeUpdate | progress => true
  | playing | pause | ended => false

/-- A moment at which the transport looks at its media. -/
structure Look where
  /-- The event that it is told about, or none when it is set up. -/
  event : Option MediaEvent
  /-- What the media reports. -/
  reading : Reading

namespace Look

/-- What a look shows. -/
def renders (l : Look) : List Render :=
  match l.event with
  | none => firstRenders l.reading
  | some e => e.renders l.reading

/-- Whether a look shows the mode. -/
def showsMode (l : Look) : Bool := l.event.all MediaEvent.showsMode

/-- Whether a look shows the times. -/
def showsTimes (l : Look) : Bool := l.event.all MediaEvent.showsTimes

/-- The latest look of a kind. -/
def latest? (kind : Look → Bool) (looks : List Look) : Option Look := (looks.filter kind).getLast?

/-- A look is the latest of its kind if no later one is. -/
theorem latest?_cons (kind : Look → Bool) (l : Look) (looks : List Look) :
    latest? kind (l :: looks) = (latest? kind looks).or (if kind l then some l else none) := by
  rw [latest?, latest?, List.filter_cons]
  split
  · rw [List.getLast?_cons]
    cases (looks.filter kind).getLast? <;> rfl
  · rw [Option.or_none]

/-- A look shows the mode that the media has then, or none. -/
theorem lastMode_renders (l : Look) :
    lastMode l.renders = if l.showsMode then some (Display.derive l.reading).mode else none := by
  obtain ⟨event, reading⟩ := l
  cases event with
  | none => rfl
  | some e => exact LibraryPlayer.lastMode_renders e reading

/-- A look shows the times that the media has then, or none. -/
theorem lastTimes_renders (l : Look) :
    lastTimes l.renders = if l.showsTimes then some (Display.derive l.reading).times else none := by
  obtain ⟨event, reading⟩ := l
  cases event with
  | none => rfl
  | some e => cases e <;> rfl

/-- The mode that is shown last was seen at the latest look that showed the mode. -/
theorem lastMode_flatMap_renders (looks : List Look) :
    lastMode (looks.flatMap renders) =
      (latest? showsMode looks).map fun l => (Display.derive l.reading).mode := by
  induction looks with
  | nil => rfl
  | cons l looks ih =>
    rw [List.flatMap_cons, lastMode_append, ih, latest?_cons, lastMode_renders]
    -- a later look of the kind decides, and without one the first may
    cases latest? showsMode looks with
    | some later => rfl
    | none => split <;> rfl

/-- The times that are shown last were seen at the latest look that showed the times. -/
theorem lastTimes_flatMap_renders (looks : List Look) :
    lastTimes (looks.flatMap renders) =
      (latest? showsTimes looks).map fun l => (Display.derive l.reading).times := by
  induction looks with
  | nil => rfl
  | cons l looks ih =>
    rw [List.flatMap_cons, lastTimes_append, ih, latest?_cons, lastTimes_renders]
    cases latest? showsTimes looks with
    | some later => rfl
    | none => split <;> rfl

end Look

namespace Display

/-- Each part of a display is as the media reported it at the latest look that showed the part. -/
structure IsSnapshot (d : Display) (looks : List Look) : Prop where
  mode : ∃ l, Look.latest? Look.showsMode looks = some l ∧ d.mode = (derive l.reading).mode
  times : ∃ l, Look.latest? Look.showsTimes looks = some l ∧ d.times = (derive l.reading).times

/-! ## A view that writes only what is new -/

/-- After a mode is drawn, it is the one that is shown, whether it had to be written or not. -/
theorem draw_mode (d : Display) (m : PlayerMode) : d.draw (.mode m) = { d with mode := m } := by
  rw [draw]
  split
  next h => rw [← h]
  next => rfl

/-- After times are drawn, they are the ones that are shown, whether they had to be written or not.
-/
theorem draw_times (d : Display) (t : Times) : d.draw (.times t) = { d with times := t } := by
  rw [draw]
  split
  next h => rw [← h]
  next => rfl

/-- A view that writes only what is new shows the last mode and the last times of the record; what
was never shown anew is as it was. -/
theorem foldl_draw (renders : List Render) (d : Display) :
    renders.foldl draw d =
      ⟨(lastMode renders).getD d.mode, (lastTimes renders).getD d.times⟩ := by
  induction renders generalizing d with
  | nil => rfl
  | cons r renders ih =>
    rw [List.foldl_cons, ih, ← List.singleton_append, lastMode_append, lastTimes_append]
    -- a mode leaves the times alone, and times leave the mode alone
    cases r with
    | mode m =>
      rw [draw_mode]
      cases lastMode renders <;> cases lastTimes renders <;> rfl
    | times t =>
      rw [draw_times]
      cases lastMode renders <;> cases lastTimes renders <;> rfl

/-- After a transport has been set up and has then looked at its media any number of times, the end
of the record is a true snapshot, and a view that writes only what is new shows the same, whatever
it showed before. -/
theorem exists_isSnapshot (reading : Reading) (looks : List Look) :
    let all := ⟨none, reading⟩ :: looks
    ∃ shown : Display, shown.IsSnapshot all ∧
      lastMode (all.flatMap Look.renders) = some shown.mode ∧
      lastTimes (all.flatMap Look.renders) = some shown.times ∧
      ∀ before, (all.flatMap Look.renders).foldl draw before = shown := by
  intro all
  -- the first look shows both parts, so there is a latest one for each
  have hfirst (kind : Look → Bool) (hkind : kind ⟨none, reading⟩ = true) :
      ∃ l, Look.latest? kind all = some l := by
    rw [Look.latest?_cons, if_pos hkind]
    cases Look.latest? kind looks with
    | none => exact ⟨_, rfl⟩
    | some l => exact ⟨l, rfl⟩
  obtain ⟨l, hl⟩ := hfirst Look.showsMode rfl
  obtain ⟨k, hk⟩ := hfirst Look.showsTimes rfl
  have hmode : lastMode (all.flatMap Look.renders) = some (derive l.reading).mode := by
    rw [Look.lastMode_flatMap_renders, hl, Option.map_some]
  have htimes : lastTimes (all.flatMap Look.renders) = some (derive k.reading).times := by
    rw [Look.lastTimes_flatMap_renders, hk, Option.map_some]
  -- mode and times may be from different looks
  refine ⟨⟨(derive l.reading).mode, (derive k.reading).times⟩, ⟨⟨l, hl, rfl⟩, ⟨k, hk, rfl⟩⟩,
    hmode, htimes, fun before => ?_⟩
  rw [foldl_draw, hmode, htimes]
  rfl

/-- The first look shows everything as it is. -/
theorem foldl_draw_firstRenders (d : Display) (r : Reading) :
    (firstRenders r).foldl draw d = derive r := by
  rw [foldl_draw]
  rfl

end Display

/-! ## Decks -/

namespace Deck

/-- The looks that an action makes the transport take. -/
def looksOf (d : Deck) : Action → List Look
  | .event e .transport => [⟨some e, d.media.reading⟩]
  | .event e .both => [⟨some e, d.media.reading⟩]
  | _ => []

/-- The looks that actions make the transport take. -/
def looks (d : Deck) : List Action → List Look
  | [] => []
  | a :: actions => d.looksOf a ++ (d.step a).2.looks actions

/-- All looks of the transport of a deck, from its set-up on. -/
def allLooks (media : Element) (actions : List Action) : List Look :=
  ⟨none, media.reading⟩ :: (ofElement media).looks actions

/-- The record of a deck grows by what its transport shows when it looks. -/
theorem step_shown (d : Deck) (a : Action) :
    (d.step a).2.shown = d.shown ++ (d.looksOf a).flatMap Look.renders := by
  by_cases ha : a.isEvent = true
  · cases a with
    | event e audience =>
      cases audience with
      | controller => exact (List.append_nil _).symm
      | transport => exact congrArg (d.shown ++ ·) (List.append_nil _).symm
      | both => exact congrArg (d.shown ++ ·) (List.append_nil _).symm
    | _ => exact absurd ha Bool.false_ne_true
  · -- nothing else shows anything: a deck that goes through it keeps its record
    have hkept := congrArg Deck.shown (d.step_showing d.shown (Bool.eq_false_iff.2 ha))
    have hnone : d.looksOf a = [] := by
      cases a with
      | event e audience => exact absurd rfl ha
      | _ => rfl
    rw [hnone, List.flatMap_nil, List.append_nil]
    exact hkept

/-- An event that does not show the mode leaves the mode as it was shown last. -/
theorem modeShown_step_of_not_showsMode (d : Deck) {e : MediaEvent} (h : e.showsMode = false) :
    (d.step (.event e .transport)).2.modeShown = d.modeShown := by
  rw [modeShown, step_shown, lastMode_append, looksOf, List.flatMap_singleton,
    Look.lastMode_renders, Look.showsMode, Option.all_some, h]
  rfl

/-- The record of a run grows by what all its looks show. -/
theorem run_shown (d : Deck) (actions : List Action) :
    (d.run actions).shown = d.shown ++ (d.looks actions).flatMap Look.renders := by
  induction actions generalizing d with
  | nil => exact (List.append_nil _).symm
  | cons a actions ih =>
    show ((d.step a).2.run actions).shown = _
    rw [ih, step_shown, looks, List.flatMap_append, List.append_assoc]

/-- The record of a deck is what its transport has shown at all of its looks. -/
theorem shown_eq (media : Element) (actions : List Action) :
    ((ofElement media).run actions).shown = (allLooks media actions).flatMap Look.renders := by
  rw [run_shown, allLooks, List.flatMap_cons]
  rfl

end Deck

/-! ## Pages -/

namespace Page

/-- The looks that an action makes the transport take. -/
def looksOf (p : Page) : Action → List Look
  | .event e => [⟨some e, p.element.reading⟩]
  | _ => []

/-- The looks that actions make the transport take. -/
def looks (p : Page) : List Action → List Look
  | [] => []
  | a :: actions => p.looksOf a ++ (p.step a).2.looks actions

/-- All looks of the transport of a page, from its set-up on. -/
def allLooks (base : String) (s : Surroundings) (actions : List Action) : List Look :=
  ⟨none, s.element.reading⟩ :: (launch base s).looks actions

/-- The display belongs to the side that plays. -/
theorem display_playSide (p : Page) : p.playSide.display = p.display := rfl

/-- An outcome shows nothing at the transport. -/
@[simp] theorem display_conclude (p : Page) (entry : Option Entry) (outcome : Outcome) :
    (p.conclude entry outcome).display = p.display := by
  obtain ⟨marked, published, h⟩ := p.conclude_changes entry outcome
  rw [h]

/-- To follow a start shows nothing at the transport. -/
@[simp] theorem display_follow (p : Page) (entry : Option Entry) (start : Start) :
    (p.follow entry start).display = p.display := by
  obtain ⟨marked, starts, published, h⟩ := p.follow_changes entry start
  rw [h]

/-- To collect a start shows nothing at the transport. -/
@[simp] theorem display_drivePending (p : Page) : p.drivePending.display = p.display := by
  obtain ⟨marked, starts, published, h⟩ := p.drivePending_changes
  rw [h]

/-- To play an entry shows nothing at the transport. -/
@[simp] theorem display_play (p : Page) (e : Entry) : (p.play e).display = p.display :=
  display_drivePending _

/-- To go on playing shows nothing at the transport by itself. -/
@[simp] theorem display_pressPlay (p : Page) : p.pressPlay.display = p.display :=
  display_follow _ _ _

/-- An event is shown before anything else comes of it. -/
theorem display_handle (p : Page) (e : MediaEvent) :
    (p.handle e).display = (e.renders p.element.reading).foldl Display.draw p.display := by
  rw [handle]
  split
  · exact display_drivePending _
  · rfl

/-- The display of a page changes by what its transport shows when it looks. -/
theorem step_display (p : Page) (a : Action) :
    (p.step a).2.display = ((p.looksOf a).flatMap Look.renders).foldl Display.draw p.display := by
  by_cases ha : a.isPlayback = true
  · cases a with
    | event e =>
      rw [looksOf, List.flatMap_singleton]
      exact p.display_handle e
    | doubleClick index =>
      simp only [step]
      split
      · exact p.display_play _
      · rfl
    | playSelected =>
      simp only [step]
      split
      · exact p.display_play _
      · rfl
    | pressPlay => exact p.display_pressPlay
    | pressPause => rfl
    | resolve index refusal =>
      simp only [step]
      split
      · split
        · rfl
        · split
          · exact display_conclude _ _ _
          · exact display_conclude _ _ _
      · rfl
    | _ => exact absurd ha Bool.false_ne_true
  · -- nothing else touches the side that plays
    have hkept := congrArg PlaySide.display (p.playSide_step (Bool.eq_false_iff.2 ha))
    rw [display_playSide, display_playSide] at hkept
    have hnone : p.looksOf a = [] := by
      cases a with
      | event e => exact absurd rfl ha
      | _ => rfl
    rw [hkept, hnone]
    rfl

/-- An event that does not show the mode leaves the mode as it was shown last. -/
theorem mode_step_of_not_showsMode (p : Page) {e : MediaEvent} (h : e.showsMode = false) :
    (p.step (.event e)).2.display.mode = p.display.mode := by
  rw [step_display, Display.foldl_draw, looksOf, List.flatMap_singleton, Look.lastMode_renders,
    Look.showsMode, Option.all_some, h]
  rfl

/-- The display of a run changes by what all its looks show. -/
theorem run_display (p : Page) (actions : List Action) :
    (p.run actions).display =
      ((p.looks actions).flatMap Look.renders).foldl Display.draw p.display := by
  induction actions generalizing p with
  | nil => rfl
  | cons a actions ih =>
    rw [run_cons, ih, step_display, looks, List.flatMap_append, List.foldl_append]

/-- A page shows at once what the element reports. -/
theorem launch_display (base : String) (s : Surroundings) :
    (launch base s).display = (firstRenders s.element.reading).foldl Display.draw .initial := by
  -- the first search is begun after the first look, and shows nothing
  have hsearch (p : Page) (text : String) : (p.search text).display = p.display := by
    rw [← display_playSide, playSide_search, display_playSide]
  rw [launch, hsearch]

/-- The display of a page is what a view that writes only what is new makes of all that the
transport shows. -/
theorem display_eq (base : String) (s : Surroundings) (actions : List Action) :
    ((launch base s).run actions).display =
      ((allLooks base s actions).flatMap Look.renders).foldl Display.draw .initial := by
  rw [run_display, launch_display, allLooks, List.flatMap_cons, List.foldl_append]
  rfl

/-- An event asks of the element only what the controller asks of it. -/
theorem element_event (p : Page) (e : MediaEvent) :
    (p.step (.event e)).2.element =
      if e.isTransport then (p.controller.handle e p.element).2 else p.element := by
  show (p.handle e).element = _
  rw [handle]
  split
  -- to follow a start that was parked asks nothing of the element
  · obtain ⟨marked, starts, published, h⟩ := drivePending_changes (withElement { p with
      display := (e.renders p.element.reading).foldl Display.draw p.display
      controller := (p.controller.handle e p.element).1 } (p.controller.handle e p.element).2)
    exact congrArg element h
  · rfl

end Page

/-! ## Decks and pages -/

/-- What transports show, after any run of a deck (which keeps a record of all that was shown) and
of a page (which shows the last of it and writes only what is new).

* Mode and times were true of the media at the latest looks that showed them.
* The page shows the last mode and the last times of the record, and a deck would, too.
* An event that does not show the mode leaves it as it is.
* At its set-up, and when the duration has changed, a transport shows both parts as they are.
* A transport asks nothing of the element when it is told about an event. -/
theorem display_true_snapshot (media : Element) (actions : List Deck.Action) (base : String)
    (s : Surroundings) (things : List Page.Action) (e : MediaEvent) :
    let d := (Deck.ofElement media).run actions
    let p := (Page.launch base s).run things
    let told := (d.step (.event e .transport)).2
    let record := (Page.allLooks base s things).flatMap Look.renders
    (∃ shown : Display, shown.IsSnapshot (Deck.allLooks media actions) ∧
      d.modeShown = some shown.mode ∧ d.timesShown = some shown.times ∧
      ∀ before, d.shown.foldl Display.draw before = shown) ∧
    (p.display.IsSnapshot (Page.allLooks base s things) ∧
      lastMode record = some p.display.mode ∧ lastTimes record = some p.display.times) ∧
    (e = .timeUpdate ∨ e = .progress →
      told.modeShown = d.modeShown ∧ (p.step (.event e)).2.display.mode = p.display.mode) ∧
    (e = .durationChange →
      told.modeShown = some (Display.derive d.media.reading).mode ∧
      told.timesShown = some (Display.derive d.media.reading).times ∧
      (p.step (.event e)).2.display = Display.derive p.element.reading) ∧
    ((Deck.ofElement media).modeShown = some (Display.derive media.reading).mode ∧
      (Deck.ofElement media).timesShown = some (Display.derive media.reading).times ∧
      (Page.launch base s).display = Display.derive s.element.reading) ∧
    told.media = d.media ∧
    (p.step (.event e)).2.element =
      if e.isTransport then (p.controller.handle e p.element).2 else p.element := by
  intro d p told record
  -- both are told by the looks that were taken, each in its own way
  have hdeck : d.shown = (Deck.allLooks media actions).flatMap Look.renders :=
    Deck.shown_eq media actions
  have hpage : p.display = record.foldl Display.draw .initial := Page.display_eq base s things
  refine ⟨?deck, ?page, ?kept, ?duration, ⟨rfl, rfl, ?launched⟩, rfl, p.element_event e⟩
  case deck =>
    obtain ⟨shown, hsnapshot, hmode, htimes, hdraw⟩ :=
      Display.exists_isSnapshot media.reading ((Deck.ofElement media).looks actions)
    rw [Deck.modeShown, Deck.timesShown, hdeck]
    exact ⟨shown, hsnapshot, hmode, htimes, hdraw⟩
  case page =>
    obtain ⟨shown, hsnapshot, hmode, htimes, hdraw⟩ :=
      Display.exists_isSnapshot s.element.reading ((Page.launch base s).looks things)
    rw [hpage.trans (hdraw .initial)]
    exact ⟨hsnapshot, hmode, htimes⟩
  case kept =>
    rintro (rfl | rfl)
    · exact ⟨d.modeShown_step_of_not_showsMode rfl, p.mode_step_of_not_showsMode rfl⟩
    · exact ⟨d.modeShown_step_of_not_showsMode rfl, p.mode_step_of_not_showsMode rfl⟩
  case duration =>
    rintro rfl
    refine ⟨d.modeShown_tellTransport rfl, ?_, ?_⟩
    · show lastTimes (d.shown ++ _) = _
      rw [lastTimes_append]
      rfl
    · show (p.handle .durationChange).display = _
      rw [p.display_handle]
      exact Display.foldl_draw_firstRenders _ _
  case launched =>
    rw [Page.launch_display, Display.foldl_draw_firstRenders]

/-- An element that plays is paused behind the transport's back.  Told that time has passed, the
transport goes on showing that it plays; told that the duration has changed, it shows the pause, and
the times of that moment. -/
theorem display_true_snapshot_of_hidden_pause :
    let media : Element := { reading := { duration := some (.ofNat 100), paused := false } }
    let pause : ElementChange := { position := some (some (.ofNat 50)), paused := some true }
    let d := (Deck.ofElement media).run [.change pause]
    let p := (Page.launch "" { element := media }).run [.change { element := pause }]
    (d.step (.event .timeUpdate .transport)).2.modeShown = some .playing ∧
    (p.step (.event .timeUpdate)).2.display.mode = .playing ∧
    (d.step (.event .durationChange .transport)).2.modeShown = some .paused ∧
    (p.step (.event .durationChange)).2.display =
      ⟨.paused, { current := "0:50", total := "1:40", played := "50%", loaded := "0%" }⟩ := by
  intro media pause d p
  obtain ⟨-, -, hkept, -⟩ := display_true_snapshot media [.change pause] ""
    { element := media } [.change { element := pause }] .timeUpdate
  obtain ⟨-, -, -, hduration, -⟩ := display_true_snapshot media [.change pause] ""
    { element := media } [.change { element := pause }] .durationChange
  obtain ⟨hdeck, hpage⟩ := hkept (.inl rfl)
  obtain ⟨hmode, -, hshown⟩ := hduration rfl
  -- each claim is traced to what the media reported, which is computed
  refine ⟨hdeck.trans ?_, hpage.trans ?_, hmode.trans ?_, hshown.trans ?_⟩ <;> decide +kernel

end LibraryPlayer
