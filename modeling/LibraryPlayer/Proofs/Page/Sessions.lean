import LibraryPlayer.Proofs.Page.Ledger

/-!
# The session has no say

The session is told of the starts that come out well, and that is all: whether there is one and
whether it takes the updates makes no difference to anything but what it has been told.  A page goes
as the same page with a session that always works, which `Page.told` describes: a run of the one
shadows a run of the other (`Shadows.run`), and so do the books of their starts
(`Shadows.ledger`).  Two runs that differ only in their sessions have the same such run.

* `session_inert`: what two runs with different sessions have in common.
-/

namespace LibraryPlayer

/-! ## Forgetting the session -/

/-- The same action without what it says about the session. -/
def Page.Action.sessionless : Action → Action
  | .change c => .change { c with session := none }
  | .hashChange c => .hashChange { c with session := none }
  | a => a

namespace Ledger

/-- The books as they are kept while the session works. -/
def attended (l : Ledger) : Ledger :=
  { l with confirmed := l.confirmed.map fun c => (c.1, .working) }

/-- What is settled is put down alike, but for the session. -/
theorem attended_settle (l : Ledger) (start : Option Nat) (session : Session)
    (refusal : Option String) :
    (l.settle start session refusal).attended = l.attended.settle start .working refusal := by
  cases refusal with
  | none => simp [settle, attended]
  | some reason => rfl

/-- What is asked for is put down alike, but for the session. -/
theorem attended_request (l : Ledger) (start : Option Nat) (session : Session) (mode : PlayMode) :
    (l.request start session mode).attended = l.attended.request start .working mode := by
  cases mode with
  | accept => exact l.attended_settle start session none
  | reject reason => rfl
  | defer => rfl

/-- What is decided on is put down alike, but for the session. -/
theorem attended_resolve (l : Ledger) (index : Nat) (session : Session)
    (refusal : Option String) :
    (l.resolve index session refusal).attended = l.attended.resolve index .working refusal := by
  have hdeferred : l.attended.deferred = l.deferred := rfl
  rw [resolve, resolve, hdeferred]
  split
  -- both books have the same request at the index, decided on or not
  next d _ =>
    split
    · rfl
    · exact attended_settle (l.decided index d) d.start session refusal
  next => rfl

/-- The same starts have come out well. -/
theorem numbers_attended (l : Ledger) :
    l.attended.confirmed.map Prod.fst = l.confirmed.map Prod.fst := by
  rw [attended, List.map_map]
  rfl

end Ledger

namespace Page

/-- The page with a session that works and has been told these. -/
def told (p : Page) (published : List NowPlaying) : Page :=
  { p with surroundings := { p.surroundings with session := .working }, published }

/-! ## Searching -/

section

variable (p : Page) (published : List NowPlaying)

/-- To begin a search has nothing to do with the session. -/
theorem told_search (text : String) :
    (p.told published).search text = (p.search text).told published := by
  simp only [search]
  split <;> rfl

/-- To take in an answer has nothing to do with the session. -/
theorem told_receive (request : Request) (answer : Answer) :
    (p.told published).receive request answer = (p.receive request answer).told published := by
  have htickets : (p.told published).tickets = p.tickets := rfl
  rw [receive, receive, htickets]
  split
  · split <;> rfl
  · rfl

/-- To follow the hash has nothing to do with the session. -/
theorem told_followHash : (p.told published).followHash = p.followHash.told published := by
  have hhash : (p.told published).surroundings.hash = p.surroundings.hash := rfl
  have hbox : (p.told published).box = p.box := rfl
  rw [followHash, followHash, hhash, hbox]
  split
  next query _ => exact told_search { p with box := query } published query
  next => rfl

/-- A step that searches tells the session nothing and asks nothing of it. -/
theorem told_step {a : Action} (ha : a.isPlayback = false) :
    (p.told published).step a.sessionless = ((p.step a).1, (p.step a).2.told published) := by
  cases a with
  | type text => rfl
  | submit =>
    have hbox : (p.told published).box = p.box := rfl
    simp only [Action.sessionless, step, hbox, told_search]
  | respond index answer =>
    have hrequests : (p.told published).requests = p.requests := rfl
    simp only [Action.sessionless, step, hrequests]
    split
    next request _ =>
      split
      · rfl
      · exact congrArg (true, ·) (told_receive { p with
          requests := p.requests.set index { request with answered := true } } published
          request answer)
    next => rfl
  | click index =>
    have hresults : (p.told published).controller.results = p.controller.results := rfl
    simp only [Action.sessionless, step, hresults]
    split <;> rfl
  -- a change of the session itself is left away, and the page that is told keeps one that works
  | change c => rfl
  | hashChange c =>
    exact congrArg (true, ·) (told_followHash { p with surroundings := p.surroundings.change c }
      published)
  -- the others are about playing
  | _ => exact absurd ha.symm Bool.false_ne_true

end

/-! ## Playing -/

/-- A page goes as another one whose session works, apart from what its own session has missed. -/
def Shadows (p q : Page) : Prop :=
  ∃ published, p.published.Sublist published ∧ q = p.told published

section

variable {p q : Page} (h : p.Shadows q)

include h

/-- The controllers are the same. -/
theorem Shadows.controller : q.controller = p.controller := by
  obtain ⟨published, -, rfl⟩ := h
  rfl

/-- The elements are the same. -/
theorem Shadows.element : q.element = p.element := by
  obtain ⟨published, -, rfl⟩ := h
  rfl

/-- The selected entries are the same. -/
theorem Shadows.selected : q.selected = p.selected := by
  obtain ⟨published, -, rfl⟩ := h
  rfl

/-- The open starts are the same. -/
theorem Shadows.starts : q.starts = p.starts := by
  obtain ⟨published, -, rfl⟩ := h
  rfl

/-- What has nothing to do with the session goes alike. -/
theorem Shadows.map (f : Page → Page) (htold : ∀ p l, f (told p l) = (f p).told l)
    (hpublished : ∀ p, (f p).published = p.published) : (f p).Shadows (f q) := by
  obtain ⟨published, hsub, rfl⟩ := h
  exact ⟨published, hpublished p ▸ hsub, htold p published⟩

/-- A session that works misses nothing that another one is told. -/
theorem Shadows.conclude (entry : Option Entry) (outcome : Outcome) :
    (p.conclude entry outcome).Shadows (q.conclude entry outcome) := by
  obtain ⟨published, hsub, rfl⟩ := h
  cases entry with
  | none => exact ⟨published, hsub, rfl⟩
  | some e =>
    cases outcome with
    | error _ => exact ⟨published, hsub, rfl⟩
    | ok _ =>
      -- the session that works is told of the track, and the other one of the same or of nothing
      refine ⟨published ++ (Session.working.confirm e.track (.ok ())).toList, hsub.append ?_, rfl⟩
      rw [Session.confirm_ok, Session.confirm_ok]
      split
      · exact .refl _
      · exact List.nil_sublist _

/-- To follow a start goes alike. -/
theorem Shadows.follow (entry : Option Entry) (start : Start) :
    (p.follow entry start).Shadows (q.follow entry start) := by
  cases start with
  | settled outcome => exact h.conclude entry outcome
  | deferred number =>
    exact h.map (fun p => p.follow entry (.deferred number)) (fun _ _ => rfl) fun _ => rfl

/-- To collect a start and follow it goes alike. -/
theorem Shadows.drivePending : p.drivePending.Shadows q.drivePending := by
  have hsame := h.controller
  cases hpending : p.controller.pending with
  | none =>
    rw [drivePending_of_none hpending, drivePending_of_none (hsame ▸ hpending)]
    exact h
  | some pending =>
    -- the start is taken out of the mailbox first, which the session has no part in
    have htaken := h.map (fun p => { p with controller := p.controller.takePending.2 })
      (fun _ _ => rfl) fun _ => rfl
    rw [drivePending_of_some hpending, drivePending_of_some (hsame ▸ hpending)]
    exact htaken.follow (some pending.entry) pending.start

/-- To play an entry goes alike. -/
theorem Shadows.play (e : Entry) : (p.play e).Shadows (q.play e) :=
  (h.map (fun p => withElement { p with controller := (p.controller.play e p.element).1 }
    (p.controller.play e p.element).2) (fun _ _ => rfl) fun _ => rfl).drivePending

/-- To press the transport's button goes alike. -/
theorem Shadows.pressPlay : p.pressPlay.Shadows q.pressPlay := by
  have hpressed := h.map (fun p => p.withElement p.element.play.2) (fun _ _ => rfl) fun _ => rfl
  rw [Page.pressPlay, Page.pressPlay, h.element]
  rw [h.element] at hpressed
  exact hpressed.follow none p.element.play.1

/-- To be told of an event goes alike. -/
theorem Shadows.handle (event : MediaEvent) : (p.handle event).Shadows (q.handle event) := by
  cases htransport : event.isTransport with
  | false =>
    rw [Page.handle, Page.handle, htransport]
    exact h.map (fun p => { p with
      display := (event.renders p.element.reading).foldl Display.draw p.display })
      (fun _ _ => rfl) fun _ => rfl
  | true =>
    -- an event about playing changes what is shown and what the controller does, and then a start
    -- may be followed
    rw [handle_of_transport _ htransport, handle_of_transport _ htransport]
    exact (h.map (fun p => withElement { p with
      display := (event.renders p.element.reading).foldl Display.draw p.display
      controller := (p.controller.handle event p.element).1 }
      (p.controller.handle event p.element).2) (fun _ _ => rfl) fun _ => rfl).drivePending

/-- To be told of a decision goes alike. -/
theorem Shadows.resolve (index : Nat) (refusal : Option String) :
    (q.step (.resolve index refusal)).1 = (p.step (.resolve index refusal)).1 ∧
      (p.step (.resolve index refusal)).2.Shadows (q.step (.resolve index refusal)).2 := by
  simp only [Page.step, h.starts]
  split
  next start _ =>
    split
    · exact ⟨rfl, h⟩
    · have hfinished := h.map (fun r => { r with
        starts := p.starts.set index { start with finished := true } })
        (fun _ _ => rfl) fun _ => rfl
      cases refusal with
      | none =>
        have hbegun := hfinished.map (fun r => r.withElement r.element.begun) (fun _ _ => rfl)
          fun _ => rfl
        exact ⟨rfl, hbegun.conclude start.entry (.ok ())⟩
      | some reason => exact ⟨rfl, hfinished.conclude start.entry (.error (.rejected reason))⟩
  next => exact ⟨rfl, h⟩

/-- A step can be done with one session exactly if it can with another, and it goes alike. -/
theorem Shadows.step (a : Action) :
    (q.step a.sessionless).1 = (p.step a).1 ∧ (p.step a).2.Shadows (q.step a.sessionless).2 := by
  cases ha : a.isPlayback with
  | false =>
    obtain ⟨published, hsub, rfl⟩ := h
    rw [told_step p published ha]
    refine ⟨rfl, published, ?_, rfl⟩
    have hpublished : (p.step a).2.published = p.published :=
      congrArg PlaySide.published (p.playSide_step ha)
    exact hpublished ▸ hsub
  | true =>
    cases a with
    | doubleClick index =>
      simp only [Page.step, Action.sessionless, h.controller]
      split
      next e _ => exact ⟨rfl, h.play e⟩
      next => exact ⟨rfl, h⟩
    | playSelected =>
      simp only [Page.step, Action.sessionless, h.selected]
      split
      next e _ => exact ⟨rfl, h.play e⟩
      next => exact ⟨rfl, h⟩
    | pressPlay => exact ⟨rfl, h.pressPlay⟩
    | pressPause => exact ⟨rfl, h.map Page.pressPause (fun _ _ => rfl) fun _ => rfl⟩
    | event event => exact ⟨rfl, h.handle event⟩
    | resolve index refusal => exact h.resolve index refusal
    -- the others are about searching
    | _ => exact absurd ha Bool.false_ne_true

end

/-- A run goes alike with a session that works. -/
theorem Shadows.run {p q : Page} (h : p.Shadows q) (actions : List Action) :
    (p.run actions).Shadows (q.run (actions.map Action.sessionless)) := by
  induction actions generalizing p q with
  | nil => exact h
  | cons a actions ih => exact ih (h.step a).2

/-- Pages are launched alike with any session. -/
theorem shadows_launch (base : String) (s : Surroundings) :
    (launch base s).Shadows (launch base { s with session := .working }) := by
  -- both begin with the search of one page that has published nothing
  have hlaunch : ∃ p : Page, launch base s = p.search p.box ∧
      launch base { s with session := .working } = (p.told []).search p.box ∧
      p.published = [] := by
    unfold launch
    dsimp only
    exact ⟨_, rfl, rfl, rfl⟩
  obtain ⟨p, hp, hworking, hpublished⟩ := hlaunch
  have hkept : (p.search p.box).published = p.published := by
    simp only [search]
    split <;> rfl
  rw [hp, hworking, told_search]
  refine ⟨[], ?_, rfl⟩
  rw [hkept, hpublished]

/-! ## The books -/

/-- The books are the same, but for the session that is put down with a start. -/
theorem Shadows.enter {p q : Page} (h : p.Shadows q) (l : Ledger) (a : Action) :
    q.enter l.attended a.sessionless = (p.enter l a).attended := by
  obtain ⟨published, -, rfl⟩ := h
  -- which entry is started has nothing to do with the session
  have hstarted : (p.told published).started? a.sessionless = p.started? a := by
    cases a with
    | event event => cases event <;> rfl
    | _ => rfl
  rw [Page.enter, Page.enter, hstarted]
  cases p.started? a with
  | some e => exact ((l.enter e).attended_request (some l.started.length) _ p.element.mode).symm
  | none =>
    cases a with
    | pressPlay => exact (l.attended_request none _ p.element.mode).symm
    | resolve index refusal => exact (l.attended_resolve index _ refusal).symm
    | _ => rfl

/-- The books of a run are the same, but for the sessions in them. -/
theorem Shadows.ledger {p q : Page} (h : p.Shadows q) (l : Ledger) (actions : List Action) :
    q.ledger l.attended (actions.map Action.sessionless) = (p.ledger l actions).attended := by
  induction actions generalizing p q l with
  | nil => rfl
  | cons a actions ih =>
    rw [List.map_cons, Page.ledger, Page.ledger, h.enter l a]
    exact ih (h.step a).2 (p.enter l a)

/-! ## Every run -/

section

variable {p q : Page} (h : p.Shadows q)

include h

/-- The session of the page that is shadowed works. -/
theorem Shadows.session : q.surroundings.session = .working := by
  obtain ⟨published, -, rfl⟩ := h
  rfl

/-- A session that works is told of everything that another one is told of. -/
theorem Shadows.published : p.published.Sublist q.published := by
  obtain ⟨published, hsub, rfl⟩ := h
  exact hsub

/-- What is shown has nothing to do with the session. -/
theorem Shadows.html (sec : Section) : q.html sec = p.html sec := by
  obtain ⟨published, -, rfl⟩ := h
  cases sec <;> rfl

end

/-- Two pages that shadow one and the same page differ at most in their sessions and in what these
have been told. -/
theorem Shadows.agree {p₁ p₂ q : Page} (h₁ : p₁.Shadows q) (h₂ : p₂.Shadows q) :
    p₂ = { p₁ with
      surroundings := { p₁.surroundings with session := p₂.surroundings.session }
      published := p₂.published } := by
  obtain ⟨published₁, -, hq₁⟩ := h₁
  obtain ⟨published₂, -, hq₂⟩ := h₂
  have hsame : p₂.told published₂ = p₁.told published₁ := hq₂.symm.trans hq₁
  exact congrArg (fun p : Page => { p with
    surroundings := { p.surroundings with session := p₂.surroundings.session }
    published := p₂.published }) hsame

/-- Two runs do the same things to a page, and their sessions may differ at the start and after any
change of what is around the page.  After the runs the pages differ at most in their sessions and in
what these have been told, show the same, and can do the same things next.  The same starts have
come out well, the same ones were refused, and the same ones are still open.  Neither session has
been told anything but, in the same order, some of what a session that always works is told. -/
theorem session_inert (base : String) (s : Surroundings) (session₁ session₂ : Session)
    (actions₁ actions₂ : List Action)
    (same : actions₁.map Action.sessionless = actions₂.map Action.sessionless) :
    let launch₁ := launch base { s with session := session₁ }
    let launch₂ := launch base { s with session := session₂ }
    let p₁ := launch₁.run actions₁
    let p₂ := launch₂.run actions₂
    let books₁ := launch₁.ledger {} actions₁
    let books₂ := launch₂.ledger {} actions₂
    let working :=
      (launch base { s with session := .working }).run (actions₁.map Action.sessionless)
    p₂ = { p₁ with
      surroundings := { p₁.surroundings with session := p₂.surroundings.session }
      published := p₂.published } ∧
    (∀ sec, p₂.html sec = p₁.html sec) ∧
    (∀ a₁ a₂ : Action, a₁.sessionless = a₂.sessionless → (p₂.step a₂).1 = (p₁.step a₁).1) ∧
    books₂.started = books₁.started ∧
    books₂.confirmed.map Prod.fst = books₁.confirmed.map Prod.fst ∧
    books₂.refused = books₁.refused ∧
    books₂.waiting = books₁.waiting ∧
    working.surroundings.session = .working ∧
    p₁.published.Sublist working.published ∧
    p₂.published.Sublist working.published := by
  intro launch₁ launch₂ p₁ p₂ books₁ books₂ working
  have hlaunch₁ : launch₁.Shadows (launch base { s with session := .working }) :=
    shadows_launch base { s with session := session₁ }
  have hlaunch₂ : launch₂.Shadows (launch base { s with session := .working }) :=
    shadows_launch base { s with session := session₂ }
  -- both runs go as the one whose session always works
  have h₁ : p₁.Shadows working := hlaunch₁.run actions₁
  have h₂ : p₂.Shadows working := by
    have hrun := hlaunch₂.run actions₂
    rwa [← same] at hrun
  -- both books are those of the run whose session works
  have hbooks : books₂.attended = books₁.attended := by
    have hbooks₁ := hlaunch₁.ledger {} actions₁
    have hbooks₂ := hlaunch₂.ledger {} actions₂
    rw [← same, hbooks₁] at hbooks₂
    exact hbooks₂.symm
  have hstarted : books₂.attended.started = books₁.attended.started := by rw [hbooks]
  have hrefused : books₂.attended.refused = books₁.attended.refused := by rw [hbooks]
  have hwaiting : books₂.attended.waiting = books₁.attended.waiting := by rw [hbooks]
  refine ⟨h₁.agree h₂, fun sec => ?_, fun a₁ a₂ ha => ?_, hstarted, ?_, hrefused, hwaiting,
    h₁.session, h₁.published, h₂.published⟩
  · exact (h₂.html sec).symm.trans (h₁.html sec)
  · rw [← (h₁.step a₁).1, ← (h₂.step a₂).1, ha]
  · rw [← books₂.numbers_attended, ← books₁.numbers_attended, hbooks]

/-- Of two listed tracks the first is played and the second follows it.  One page has a session that
takes no updates until the first track has started and works after that, the other one has none at
all: only one of them publishes anything, but both play the same and mark the same row. -/
theorem session_inert_on_advance :
    let answer := Answer.reply 200
      "\x7b\"results\":[\x7b\"id\":7\x7d,\x7b\"id\":8\x7d]\x7d".toUTF8.toList
    let actions (later : Option Session) : List Action :=
      [.type "a", .submit, .respond 0 answer, .doubleClick 0, .change { session := later },
        .event .ended]
    let p₁ := (launch "http://h" { session := .failing }).run (actions (some .working))
    let p₂ := (launch "http://h" { session := .absent }).run (actions none)
    (actions (some .working)).map Action.sessionless = (actions none).map Action.sessionless ∧
      p₁.published.isEmpty = false ∧
      p₂.published.isEmpty = true ∧
      p₁.element.loads = ["item/7/file", "item/8/file"] ∧
      p₂.element.loads = p₁.element.loads ∧
      p₂.html .entities = p₁.html .entities := by
  intro answer actions p₁ p₂
  have same : (actions (some .working)).map Action.sessionless =
      (actions none).map Action.sessionless := rfl
  obtain ⟨hpage, hhtml, -⟩ := session_inert "http://h" {} .failing .absent _ _ same
  have hloads := congrArg (fun p : Page => p.element.loads) hpage
  exact ⟨same, by decide +kernel, by decide +kernel, by decide +kernel, hloads, hhtml .entities⟩

end Page

end LibraryPlayer
