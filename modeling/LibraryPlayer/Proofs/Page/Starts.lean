import LibraryPlayer.Page.View
import LibraryPlayer.Proofs.Page.Sides

/-!
# Starts and their outcomes

An entry is started from its row, from the details, or because the one before it has ended.  If the
element leaves the outcome open, the start stays on the page until the element decides on it, and by
then another start may have been made.  `plays` lists the entries that a run starts; the pointer
never strays from the last of them (`Played`), and neither does the marker.

`superseded_rejection`: what the rejection of a start does after a newer one.  The page knows the
start only by its entry, so it takes the rejection for one of the newer start if that is of the same
entry, and only then.
-/

namespace LibraryPlayer

namespace Page

/-- The entry that an action starts. -/
def started? (p : Page) : Action → Option Entry
  | .doubleClick index => p.controller.results.get? index
  | .playSelected => p.selected
  | .event .ended => p.controller.pointer.bind p.controller.results.following?
  | _ => none

/-- The entries that actions start, oldest first. -/
def plays (p : Page) : List Action → List Entry
  | [] => []
  | a :: actions => (p.started? a).toList ++ (p.step a).2.plays actions

/-- Which rows show the playing marker, from top to bottom. -/
def markedRows (p : Page) : List Bool := p.controller.results.entries.map p.controller.isMarked

/-- The entries that two runs in a row start are those of the one and then those of the other. -/
theorem plays_append (p : Page) (before after : List Action) :
    p.plays (before ++ after) = p.plays before ++ (p.run before).plays after := by
  induction before generalizing p with
  | nil => rfl
  | cons a before ih => rw [List.cons_append, plays, plays, ih, List.append_assoc, run_cons]

/-! ## Going on without a start -/

/-- A page goes on as another one without a new start: the pointer stays or is given up, the marker
does not leave it, and no open start is forgotten, nor what it is a start of. -/
structure GoesOn (p p' : Page) : Prop where
  pointer : ∀ e, p'.controller.pointer = some e → p.controller.pointer = some e
  marks : p.controller.MarksPointer → p'.controller.MarksPointer
  starts : p.starts.map OpenStart.entry <+: p'.starts.map OpenStart.entry

/-- Nothing but the controller and the open starts matters. -/
theorem GoesOn.of_eq {p p' : Page} (hcontroller : p'.controller = p.controller)
    (hstarts : p'.starts = p.starts) : p.GoesOn p' where
  pointer _ he := hcontroller ▸ he
  marks hm := hcontroller ▸ hm
  starts := hstarts ▸ List.prefix_refl _

/-- A page that goes on as one that goes on goes on. -/
theorem GoesOn.trans {p q r : Page} (h : p.GoesOn q) (h' : q.GoesOn r) : p.GoesOn r where
  pointer e he := h.pointer e (h'.pointer e he)
  marks hm := h'.marks (h.marks hm)
  starts := h.starts.trans h'.starts

/-- A page goes on after an outcome. -/
theorem goesOn_conclude (p : Page) (entry : Option Entry) (outcome : Outcome) :
    p.GoesOn (p.conclude entry outcome) := by
  cases entry with
  | none => exact .of_eq rfl rfl
  | some e =>
    cases outcome with
    | ok _ => exact .of_eq rfl rfl
    | error _ =>
      -- a rejection may take the marker away, but it leaves the pointer
      refine ⟨fun x hx => ?_, fun hm => hm.startRejected e, List.prefix_refl _⟩
      exact (Controller.startRejected_pointer p.controller e).symm.trans hx

/-- A page goes on when a start is followed, which may join the open ones. -/
theorem goesOn_follow (p : Page) (entry : Option Entry) (start : Start) :
    p.GoesOn (p.follow entry start) := by
  cases start with
  | settled outcome => exact goesOn_conclude p entry outcome
  | deferred number =>
    have hstarts : (p.follow entry (.deferred number)).starts.map OpenStart.entry =
        p.starts.map OpenStart.entry ++ [entry] := by simp [follow]
    exact ⟨fun _ => id, id, hstarts ▸ List.prefix_append _ _⟩

/-- A page goes on when a parked start is collected. -/
theorem goesOn_drivePending (p : Page) : p.GoesOn p.drivePending := by
  cases h : p.controller.pending with
  | none =>
    rw [drivePending_of_none h]
    exact .of_eq rfl rfl
  | some pending =>
    have htaken : p.GoesOn { p with controller := p.controller.takePending.2 } :=
      ⟨fun _ => id, fun hm => hm.takePending, List.prefix_refl _⟩
    rw [drivePending_of_some h]
    exact htaken.trans (goesOn_follow _ _ _)

/-- A page goes on when a search is begun. -/
theorem goesOn_search (p : Page) (text : String) : p.GoesOn (p.search text) := by
  simp only [search]
  split
  · exact .of_eq rfl rfl
  · exact .of_eq rfl rfl

/-- New results take the marker away and leave the pointer where it is. -/
theorem goesOn_receive (p : Page) (request : Request) (answer : Answer) :
    p.GoesOn (p.receive request answer) := by
  rw [receive]
  split
  · split
    · exact ⟨fun _ => id, fun _ => .setResults p.controller _, List.prefix_refl _⟩
    · exact .of_eq rfl rfl
  · exact .of_eq rfl rfl

/-- An event about playing reaches the controller once the transport has been shown anew, and a
start that the controller then makes is followed. -/
theorem handle_of_transport (p : Page) {event : MediaEvent} (h : event.isTransport = true) :
    p.handle event = ({ p with
      display := (event.renders p.element.reading).foldl Display.draw p.display
      controller := (p.controller.handle event p.element).1 }.withElement
        (p.controller.handle event p.element).2).drivePending := by
  rw [handle, h]
  rfl

/-- An event that starts nothing leaves the pointer where it is, or gives it up at the end. -/
theorem goesOn_handle (p : Page) {event : MediaEvent} (h : p.started? (.event event) = none) :
    p.GoesOn (p.handle event) := by
  cases htransport : event.isTransport with
  | false =>
    rw [handle, htransport]
    exact .of_eq rfl rfl
  | true =>
    rw [p.handle_of_transport htransport]
    have hhandled : p.GoesOn ({ p with
        display := (event.renders p.element.reading).foldl Display.draw p.display
        controller := (p.controller.handle event p.element).1 }.withElement
          (p.controller.handle event p.element).2) := by
      refine ⟨fun e he => ?_, fun hm => hm.handle event p.element, List.prefix_refl _⟩
      cases event with
      | ended =>
        -- a pointer after the end would be that of an entry that is started
        have hnext : p.started? (.event .ended) = some e :=
          (Controller.advance_pointer p.controller p.element).symm.trans he
        exact absurd (hnext.symm.trans h) (Option.some_ne_none e)
      | _ => exact he
    exact hhandled.trans (goesOn_drivePending _)

/-- That a start has been decided on does not change what it is a start of. -/
theorem goesOn_finished {p : Page} {index : Nat} {start : OpenStart}
    (h : p.starts[index]? = some start) :
    p.GoesOn { p with starts := p.starts.set index { start with finished := true } } := by
  have hset : (p.starts.set index { start with finished := true }).map OpenStart.entry =
      p.starts.map OpenStart.entry := map_set_of_eq OpenStart.entry h rfl
  exact ⟨fun _ => id, id, hset ▸ List.prefix_refl _⟩

/-- A step that starts no entry goes on. -/
theorem goesOn_step {p : Page} {a : Action} (h : p.started? a = none) :
    p.GoesOn (p.step a).2 := by
  cases a with
  | doubleClick index =>
    have hget : p.controller.results.get? index = none := h
    simp only [step, hget]
    exact .of_eq rfl rfl
  | playSelected =>
    have hselected : p.selected = none := h
    simp only [step, hselected]
    exact .of_eq rfl rfl
  | event event => exact goesOn_handle p h
  | submit =>
    simp only [step]
    exact goesOn_search p p.box
  | hashChange c =>
    simp only [step, followHash]
    split
    next query _ =>
      have hbox : p.GoesOn { p with surroundings := p.surroundings.change c, box := query } :=
        .of_eq rfl rfl
      exact hbox.trans (goesOn_search _ query)
    next => exact .of_eq rfl rfl
  | respond index answer =>
    simp only [step]
    split
    next request _ =>
      split
      · exact .of_eq rfl rfl
      · have hanswered : p.GoesOn { p with
            requests := p.requests.set index { request with answered := true } } := .of_eq rfl rfl
        exact hanswered.trans (goesOn_receive _ request answer)
    next => exact .of_eq rfl rfl
  | pressPlay =>
    have hpressed : p.GoesOn (p.withElement p.element.play.2) := .of_eq rfl rfl
    exact hpressed.trans (goesOn_follow _ none p.element.play.1)
  -- a decision finishes one start, and then its outcome is told
  | resolve index refusal =>
    simp only [step]
    split
    next start hstart =>
      split
      · exact .of_eq rfl rfl
      · have hfinished := goesOn_finished hstart
        cases refusal with
        | none =>
          have hbegun : p.GoesOn ({ p with
              starts := p.starts.set index { start with finished := true } }.withElement
                p.element.begun) := hfinished.trans (.of_eq rfl rfl)
          exact hbegun.trans (goesOn_conclude _ start.entry _)
        | some reason => exact hfinished.trans (goesOn_conclude _ start.entry _)
    next => exact .of_eq rfl rfl
  | click index =>
    simp only [step]
    split
    · exact .of_eq rfl rfl
    · exact .of_eq rfl rfl
  | type text => exact .of_eq rfl rfl
  | pressPause => exact .of_eq rfl rfl
  | change c => exact .of_eq rfl rfl

/-! ## Starting an entry -/

/-- A page is about to follow the start of an entry: the pointer and the marker are at it, and the
element's answer is parked. -/
structure Starting (p : Page) (e : Entry) (start : Start) : Prop where
  pointer : p.controller.pointer = some e
  marked : p.controller.marked = some e
  pending : p.controller.pending = some ⟨e, start⟩

/-- To play an entry is to follow its start, with pointer and marker at the entry. -/
theorem play_eq (p : Page) (e : Entry) :
    ∃ q : Page, p.play e = q.drivePending ∧ q.starts = p.starts ∧
      q.Starting e (p.element.load e.track.audioPath).play.1 :=
  ⟨{ p with controller := (p.controller.play e p.element).1 }.withElement
    (p.controller.play e p.element).2, rfl, rfl, rfl, rfl, rfl⟩

/-- A step that starts an entry plays it, once the transport has been shown anew and what was
playing has been given up. -/
theorem step_eq_play {p : Page} {a : Action} {e : Entry} (h : p.started? a = some e) :
    ∃ q : Page, (p.step a).2 = q.play e ∧ q.surroundings = p.surroundings ∧
      q.starts = p.starts ∧ q.published = p.published := by
  cases a with
  | doubleClick index =>
    have hget : p.controller.results.get? index = some e := h
    simp only [step, hget]
    exact ⟨p, rfl, rfl, rfl, rfl⟩
  | playSelected =>
    have hselected : p.selected = some e := h
    simp only [step, hselected]
    exact ⟨p, rfl, rfl, rfl, rfl⟩
  | event event =>
    cases event with
    | ended =>
      have hnext : p.controller.pointer.bind p.controller.results.following? = some e := h
      -- the entry that has ended is given up before the next one is started
      have hadvance : p.controller.advance p.element =
          { p.controller with marked := none, pointer := none }.play e p.element := by
        rw [Controller.advance, hnext]
      refine ⟨{ p with
        display := (MediaEvent.ended.renders p.element.reading).foldl Display.draw p.display
        controller := { p.controller with marked := none, pointer := none } }, ?_, rfl, rfl, rfl⟩
      rw [step, p.handle_of_transport rfl, Controller.handle, hadvance]
      rfl
    | _ => simp [started?] at h
  | _ => simp [started?] at h

/-- A step that starts an entry asks the element for it and follows the answer. -/
theorem step_of_started {p : Page} {a : Action} {e : Entry} (h : p.started? a = some e) :
    ∃ q : Page, (p.step a).2 = q.drivePending ∧ q.starts = p.starts ∧
      q.Starting e (p.element.load e.track.audioPath).play.1 := by
  obtain ⟨q, hstep, hsurroundings, hstarts, -⟩ := step_eq_play h
  obtain ⟨r, hplay, hkept, hstarting⟩ := q.play_eq e
  have helement : q.element = p.element := congrArg Surroundings.element hsurroundings
  exact ⟨r, hstep.trans hplay, hkept.trans hstarts, helement ▸ hstarting⟩

/-- A page that is about to follow a start has its marker at the pointer. -/
theorem Starting.marksPointer {p : Page} {e : Entry} {start : Start} (h : p.Starting e start) :
    p.controller.MarksPointer := by
  intro x hx
  rw [h.pointer, ← h.marked, hx]

/-- A start that the element leaves open joins the open ones. -/
theorem starts_of_deferred {p : Page} {a : Action} {e : Entry} (h : p.started? a = some e)
    (hmode : p.element.mode = .defer) :
    (p.step a).2.starts = p.starts ++ [⟨some e, false⟩] := by
  obtain ⟨q, hstep, hstarts, hstarting⟩ := step_of_started h
  -- loading the entry does not change how the element answers
  have hplay : (p.element.load e.track.audioPath).play.1 = .deferred p.element.deferred := by
    simp [Element.load, Element.play, hmode]
  rw [hstep, drivePending_of_some hstarting.pending, hplay, ← hstarts]
  rfl

/-! ## Runs -/

/-- No open start is ever forgotten. -/
theorem starts_step (p : Page) (a : Action) :
    p.starts.map OpenStart.entry <+: (p.step a).2.starts.map OpenStart.entry := by
  cases h : p.started? a with
  | none => exact (goesOn_step h).starts
  | some e =>
    obtain ⟨q, hstep, hstarts, -⟩ := step_of_started h
    rw [hstep, ← hstarts]
    exact (goesOn_drivePending q).starts

/-- No open start is forgotten in a run. -/
theorem starts_run (p : Page) (actions : List Action) :
    p.starts.map OpenStart.entry <+: (p.run actions).starts.map OpenStart.entry := by
  induction actions generalizing p with
  | nil => exact List.prefix_refl _
  | cons a actions ih => exact (p.starts_step a).trans (ih (p.step a).2)

/-- A page has started these entries: the pointer is at the last of them or at nothing, and the
marker is where the pointer is. -/
structure Played (p : Page) (entries : List Entry) : Prop where
  last : ∀ e, p.controller.pointer = some e → entries.getLast? = some e
  marks : p.controller.MarksPointer

/-- What goes on without a start has started nothing more. -/
theorem Played.goesOn {p p' : Page} {entries : List Entry} (h : p.Played entries)
    (hp : p.GoesOn p') : p'.Played entries where
  last e he := h.last e (hp.pointer e he)
  marks := hp.marks h.marks

/-- A step adds the entry that it starts. -/
theorem Played.step {p : Page} {entries : List Entry} (h : p.Played entries) (a : Action) :
    (p.step a).2.Played (entries ++ (p.started? a).toList) := by
  cases hstarted : p.started? a with
  | none => simpa only [Option.toList_none, List.append_nil] using h.goesOn (goesOn_step hstarted)
  | some e =>
    obtain ⟨q, hstep, -, hstarting⟩ := step_of_started hstarted
    -- between the start and its outcome the pointer and the marker are at the new entry
    have hq : q.Played (entries ++ [e]) := by
      refine ⟨fun x hx => ?_, hstarting.marksPointer⟩
      rw [List.getLast?_concat, ← hstarting.pointer, hx]
    rw [hstep]
    exact hq.goesOn (goesOn_drivePending q)

/-- A run adds the entries that it starts. -/
theorem Played.run {p : Page} {entries : List Entry} (h : p.Played entries)
    (actions : List Action) : (p.run actions).Played (entries ++ p.plays actions) := by
  induction actions generalizing p entries with
  | nil => simpa only [plays, run_nil, List.append_nil] using h
  | cons a actions ih =>
    rw [run_cons, plays, ← List.append_assoc]
    exact ih (h.step a)

/-- A page is launched with nothing started. -/
theorem played_launch (base : String) (s : Surroundings) : (launch base s).Played [] := by
  have hnone : ∀ p : Page, p.controller = {} → p.Played [] := by
    intro p hp
    refine ⟨fun e he => ?_, hp ▸ Controller.marksPointer_initial⟩
    rw [hp] at he
    exact nomatch he
  unfold launch
  exact (hnone _ rfl).goesOn (goesOn_search _ _)

/-! ## Rejections -/

/-- The rejection of an open start of an entry finishes the start and goes to the controller. -/
theorem step_reject {p : Page} {index : Nat} {e : Entry}
    (h : p.starts[index]? = some ⟨some e, false⟩) (reason : String) :
    (p.step (.resolve index (some reason))).2 = { p with
      starts := p.starts.set index ⟨some e, true⟩
      controller := p.controller.startRejected e } := by
  simp only [step, h]
  rfl

/-- Without a marker no row is marked. -/
theorem markedRows_of_unmarked {p : Page} (h : p.controller.marked = none) :
    p.markedRows = List.replicate p.controller.results.tracks.length false := by
  have hnone : p.controller.isMarked = fun _ => false := by
    funext e
    simp [Controller.isMarked, h]
  rw [markedRows, hnone, List.map_const', ResultSet.length_entries]

/-- The rows of a page are as many unmarked ones exactly if none of them is marked. -/
theorem markedRows_eq_replicate_iff (p : Page) :
    p.markedRows = List.replicate p.controller.results.tracks.length false ↔
      true ∉ p.markedRows := by
  have hlength : p.markedRows.length = p.controller.results.tracks.length := by
    rw [markedRows, List.length_map, ResultSet.length_entries]
  -- there is one row for each track, so only what is in the rows can differ
  rw [List.eq_replicate_iff]
  constructor
  · rintro ⟨-, hfalse⟩ htrue
    exact nomatch hfalse true htrue
  · intro htrue
    refine ⟨hlength, fun b hb => ?_⟩
    cases b with
    | false => rfl
    | true => exact absurd hb htrue

/-- A rejection of the start of another entry than the last one reaches nothing. -/
theorem Played.reject_other {p : Page} {entries : List Entry} (h : p.Played entries) {e e' : Entry}
    (hlast : entries.getLast? = some e') (hother : e'.same e = false) :
    p.controller.startRejected e = p.controller := by
  cases hpointer : p.controller.pointer with
  | none => exact Controller.startRejected_of_not_pointer (by simp [hpointer])
  | some x =>
    obtain rfl : e' = x := Option.some.inj (hlast.symm.trans (h.last x hpointer))
    exact Controller.startRejected_of_not_pointer (by simp [hpointer, hother])

/-- After a rejection of the start of the same entry as the last one, nothing is marked. -/
theorem Played.reject_same {p : Page} {entries : List Entry} (h : p.Played entries) {e e' : Entry}
    (hlast : entries.getLast? = some e') (hsame : e'.same e = true) :
    (p.controller.startRejected e).marked = none := by
  rw [Controller.startRejected_marked]
  cases hpointer : p.controller.pointer with
  | none =>
    -- without a pointer there was no marker to begin with
    cases hm : p.controller.marked with
    | none => rfl
    | some x => exact nomatch hpointer.symm.trans (h.marks x hm)
  | some x =>
    obtain rfl : e' = x := Option.some.inj (hlast.symm.trans (h.last x hpointer))
    simp [hsame]

/-- What the rejection of an open start does when `e'` is the last entry that was started. -/
theorem Played.reject {p : Page} {entries : List Entry} (h : p.Played entries) {e e' : Entry}
    (hlast : entries.getLast? = some e') {index : Nat}
    (hopen : p.starts[index]? = some ⟨some e, false⟩) (reason : String) :
    ((p.step (.resolve index (some reason))).2.markedRows ≠ p.markedRows ↔
      e'.same e = true ∧ true ∈ p.markedRows) ∧
    (e'.same e = true → true ∉ (p.step (.resolve index (some reason))).2.markedRows) ∧
    (e'.same e = false → (p.step (.resolve index (some reason))).2 =
      { p with starts := p.starts.set index ⟨some e, true⟩ }) ∧
    ∀ sec, sec ≠ .entities ∨ e'.same e = false →
      (p.step (.resolve index (some reason))).2.html sec = p.html sec := by
  rw [step_reject hopen reason]
  -- the page tells starts apart by their entries only, so this is the one thing that matters
  cases hsame : e'.same e with
  | true =>
    have hrows : markedRows { p with
        starts := p.starts.set index ⟨some e, true⟩
        controller := p.controller.startRejected e } =
        List.replicate p.controller.results.tracks.length false := by
      rw [markedRows_of_unmarked (h.reject_same hlast hsame), Controller.startRejected_results]
    refine ⟨?_, fun _ => ?_, (nomatch ·), fun sec hsec => ?_⟩
    · rw [hrows, ne_comm, Ne, markedRows_eq_replicate_iff, Decidable.not_not]
      exact ⟨fun htrue => ⟨rfl, htrue⟩, fun htrue => htrue.2⟩
    · rw [hrows]
      exact fun htrue => nomatch List.eq_of_mem_replicate htrue
    · cases sec with
      | entities => simp at hsec
      | _ => rfl
  | false =>
    rw [h.reject_other hlast hsame]
    refine ⟨⟨fun hne => absurd rfl hne, fun htrue => nomatch htrue.1⟩, (nomatch ·), fun _ => rfl,
      fun sec _ => ?_⟩
    cases sec <;> rfl

/-- The start that a step makes and the element leaves open keeps its place and its entry. -/
theorem entry_of_started {p : Page} {a : Action} {e : Entry} (h : p.started? a = some e)
    (hmode : p.element.mode = .defer) (between : List Action) {start : OpenStart}
    (hstart : ((p.step a).2.run between).starts[p.starts.length]? = some start) :
    start.entry = some e := by
  -- the starts of the run go on from those after the step
  obtain ⟨rest, hrest⟩ := starts_run (p.step a).2 between
  rw [starts_of_deferred h hmode, List.map_append, List.append_assoc] at hrest
  have hentry : (((p.step a).2.run between).starts.map OpenStart.entry)[p.starts.length]? =
      some (some e) := by
    rw [← hrest, List.getElem?_append_right (by simp)]
    simp
  rw [List.getElem?_map, hstart] at hentry
  exact Option.some.inj hentry

/-- A start of `e` is made and left open, `e'` is the last entry that is started after it, and then
the older start is rejected.  The rejection changes which row is marked exactly if `e'` is the same
entry as `e` and a row is marked: then no row is marked any more, though nothing was said of the
newer start.  Of another entry's start the rejection changes nothing that the page shows. -/
theorem superseded_rejection (base : String) (s : Surroundings) (before : List Action) (a : Action)
    (between : List Action) (e e' : Entry) (start : OpenStart) (reason : String)
    (started : ((launch base s).run before).started? a = some e)
    (deferred : ((launch base s).run before).element.mode = .defer)
    (newest : (((launch base s).run (before ++ [a])).plays between).getLast? = some e')
    (made : ((launch base s).run (before ++ a :: between)).starts[
      ((launch base s).run before).starts.length]? = some start)
    (isOpen : start.finished = false) :
    let index := ((launch base s).run before).starts.length
    let p := (launch base s).run (before ++ a :: between)
    let p' := (p.step (.resolve index (some reason))).2
    (p'.markedRows ≠ p.markedRows ↔ e'.same e = true ∧ true ∈ p.markedRows) ∧
    (e'.same e = true → true ∉ p'.markedRows) ∧
    (e'.same e = false →
      p' = { p with starts := p.starts.set index { start with finished := true } }) ∧
    ∀ sec, sec ≠ .entities ∨ e'.same e = false → p'.html sec = p.html sec := by
  intro index p p'
  -- it still is a start of `e`, and still open
  obtain rfl : start = ⟨some e, false⟩ := by
    have hentry : start.entry = some e := by
      rw [run_append, run_cons] at made
      exact entry_of_started started deferred between made
    cases start
    simp only at hentry isOpen
    rw [hentry, isOpen]
  -- the whole run ends with a start of `e'`, since the newer starts come after all others
  have hplayed := (played_launch base s).run (before ++ a :: between)
  have hlast : ([] ++ (launch base s).plays (before ++ a :: between)).getLast? = some e' := by
    rw [List.nil_append, List.append_cons, plays_append, List.getLast?_append, newest,
      Option.some_or]
  exact hplayed.reject hlast made reason

/-- The element leaves every start open, the one row that was found is double-clicked twice, and the
first start is rejected: the row is no longer marked, though the second start is still open. -/
theorem superseded_rejection_of_same :
    let reply := Answer.reply 200 "\x7b\"results\":[\x7b\"id\":7\x7d]\x7d".toUTF8.toList
    let p := (launch "http://h" { element := { mode := .defer } }).run
      ([.type "q", .submit, .respond 0 reply] ++ .doubleClick 0 :: [.doubleClick 0])
    p.markedRows = [true] ∧ p.starts[1]? = some ⟨some ⟨⟨0, 0⟩, { id := 7 }⟩, false⟩ ∧
      true ∉ (p.step (.resolve 0 (some "AbortError"))).2.markedRows := by
  intro reply p
  obtain ⟨-, hcleared, -⟩ := superseded_rejection "http://h" { element := { mode := .defer } }
    [.type "q", .submit, .respond 0 (.reply 200
      "\x7b\"results\":[\x7b\"id\":7\x7d]\x7d".toUTF8.toList)] (.doubleClick 0) [.doubleClick 0]
    ⟨⟨0, 0⟩, { id := 7 }⟩ ⟨⟨0, 0⟩, { id := 7 }⟩ ⟨some ⟨⟨0, 0⟩, { id := 7 }⟩, false⟩ "AbortError"
    (by decide +kernel) (by decide +kernel) (by decide +kernel) (by decide +kernel) rfl
  -- the rejected start is the first one that there is
  have hindex : ((launch "http://h" { element := { mode := .defer } }).run
      [.type "q", .submit, .respond 0 reply]).starts.length = 0 := by decide +kernel
  refine ⟨by decide +kernel, by decide +kernel, ?_⟩
  rw [hindex] at hcleared
  exact hcleared rfl

end Page

end LibraryPlayer
