import LibraryPlayer.Proofs.Page.Searches

/-!
# Searching and playing do not disturb each other

The two sides of a page share its controller, which keeps the list next to the pointer and the
marker.  A step that searches leaves the controller as it is or installs new results in it
(`searched_step`), and with them goes the marker.  A step that plays leaves the list alone, so what
a run searches for and lists is the same without its playing steps (`searchSide_run`).

* `sides_independent`: what a step of one side leaves alone of the other one.
-/

namespace LibraryPlayer.Page

/-! ## What a search does to the list -/

/-- What a step that searches does to the list and the selection: nothing, or a row is selected, or
new results are installed. -/
inductive Searched (p p' : Page) : Action → Prop where
  | kept (a : Action) (controller : p'.controller = p.controller)
      (installed : p'.installed = p.installed) (selected : p'.selected = p.selected) :
      Searched p p' a
  | selected (index : Nat) (e : Entry) (row : p.controller.results.get? index = some e)
      (page : p' = { p with selected := some e }) : Searched p p' (.click index)
  | installed (index : Nat) (answer : Answer) (tracks : List Track) (lists : answer.Lists tracks)
      (controller : p'.controller = p.controller.setResults ⟨p.installed, tracks⟩)
      (installed : p'.installed = p.installed + 1) (selected : p'.selected = none) :
      Searched p p' (.respond index answer)

/-- To begin a search changes neither the controller nor the selection. -/
theorem search_keeps (p : Page) (text : String) :
    (p.search text).controller = p.controller ∧ (p.search text).installed = p.installed ∧
      (p.search text).selected = p.selected := by
  simp only [search]
  split <;> exact ⟨rfl, rfl, rfl⟩

/-- An answer installs the tracks that it lists, or does nothing to the list. -/
theorem searched_respond (p : Page) (index : Nat) (request : Request) (answer : Answer) :
    p.Searched ((p.answered index request).receive request answer) (.respond index answer) := by
  rw [receive]
  split
  next tracks htracks =>
    split
    · exact .installed index answer tracks (Answer.tracks_eq_ok_iff.1 htracks) rfl rfl rfl
    · exact .kept _ rfl rfl rfl
  next => exact .kept _ rfl rfl rfl

/-- What a step that searches can do to the list and the selection is one of three things. -/
theorem searched_step (p : Page) {a : Action} (h : a.isPlayback = false) :
    p.Searched (p.step a).2 a := by
  cases a with
  | type text => exact .kept _ rfl rfl rfl
  | submit =>
    obtain ⟨hcontroller, hinstalled, hselected⟩ := p.search_keeps p.box
    exact .kept _ hcontroller hinstalled hselected
  | respond index answer =>
    simp only [step]
    split
    next request _ =>
      split
      · exact .kept _ rfl rfl rfl
      · exact searched_respond p index request answer
    next => exact .kept _ rfl rfl rfl
  | click index =>
    simp only [step]
    split
    next e he => exact .selected index e he rfl
    next => exact .kept _ rfl rfl rfl
  | change c => exact .kept _ rfl rfl rfl
  | hashChange c =>
    simp only [step, followHash]
    split
    next query _ =>
      obtain ⟨hcontroller, hinstalled, hselected⟩ := search_keeps
        { p with surroundings := p.surroundings.change c, box := query } query
      exact .kept _ hcontroller hinstalled hselected
    next => exact .kept _ rfl rfl rfl
  -- the others are about playing
  | _ => exact absurd h.symm Bool.false_ne_true

/-! ## Runs without their playing steps -/

section

variable {p q : Page} (h : p.searchSide = q.searchSide)

include h

/-- What a search does to its side depends on nothing else. -/
theorem search_congr (text : String) :
    (p.search text).searchSide = (q.search text).searchSide := by
  simp only [search]
  split
  · exact h
  -- the new side is a function of the old one, so equal sides stay equal
  · exact congrArg (fun s : SearchSide => { s with
      hash := Hash.ofQuery (Text.trim text)
      tickets := s.tickets.begin
      requests := s.requests ++ ((s.client.queryUrl? (Text.trim text)).map fun url =>
        (⟨url, s.tickets.begin.latest, false⟩ : Request)).toList }) h

/-- What an answer does to the side that searches depends on nothing else. -/
theorem receive_congr (request : Request) (answer : Answer) :
    (p.receive request answer).searchSide = (q.receive request answer).searchSide := by
  -- whether the answer is current is decided by the tickets, which are of this side
  have htickets : p.tickets = q.tickets := congrArg SearchSide.tickets h
  rw [receive, receive, htickets]
  split
  next tracks _ =>
    split
    · exact congrArg (fun s : SearchSide => { s with
        results := ⟨s.installed, tracks⟩, installed := s.installed + 1, selected := none }) h
    · exact h
  next => exact h

/-- What following the hash does to the side that searches depends on nothing else. -/
theorem followHash_congr : p.followHash.searchSide = q.followHash.searchSide := by
  have hhash : p.surroundings.hash = q.surroundings.hash := congrArg SearchSide.hash h
  have hbox : p.box = q.box := congrArg SearchSide.box h
  rw [followHash, followHash, hhash, hbox]
  split
  next query _ =>
    exact search_congr (congrArg (fun s : SearchSide => { s with box := query }) h) query
  next => exact h

/-- What a step that searches does to its side depends on nothing else. -/
theorem searchSide_step_congr {a : Action} (ha : a.isPlayback = false) :
    (p.step a).2.searchSide = (q.step a).2.searchSide := by
  cases a with
  | type text => exact congrArg (fun s : SearchSide => { s with box := text }) h
  | submit =>
    have hbox : p.box = q.box := congrArg SearchSide.box h
    simp only [step, hbox]
    exact search_congr h q.box
  -- the request that is answered is found on this side, too
  | respond index answer =>
    have hrequests : p.requests = q.requests := congrArg SearchSide.requests h
    simp only [step, hrequests]
    split
    next request _ =>
      split
      · exact h
      · exact receive_congr (congrArg (fun s : SearchSide => { s with
          requests := q.requests.set index { request with answered := true } }) h) request answer
    next => exact h
  | click index =>
    have hresults : p.controller.results = q.controller.results := congrArg SearchSide.results h
    simp only [step, hresults]
    split
    next e _ => exact congrArg (fun s : SearchSide => { s with selected := some e }) h
    next => exact h
  | change c => exact congrArg (fun s : SearchSide => { s with hash := c.hash.getD s.hash }) h
  | hashChange c =>
    have hchanged := congrArg (fun s : SearchSide => { s with hash := c.hash.getD s.hash }) h
    exact followHash_congr hchanged
  -- the others are about playing
  | _ => exact absurd ha.symm Bool.false_ne_true

/-- What a run searches for, lists and selects is the same without its playing steps. -/
theorem searchSide_run (actions : List Action) :
    (p.run actions).searchSide = (q.run (actions.filter fun a => !a.isPlayback)).searchSide := by
  induction actions generalizing p q with
  | nil => exact h
  | cons a actions ih =>
    -- a step that plays is left away and changes nothing here, any other one is made on both pages
    cases ha : a.isPlayback with
    | true =>
      rw [run_cons, List.filter_cons_of_neg (by simp [ha])]
      exact ih ((p.searchSide_step ha).trans h)
    | false =>
      rw [run_cons, List.filter_cons_of_pos (by simp [ha]), run_cons]
      exact ih (searchSide_step_congr h ha)

end

/-! ## Both sides -/

/-- What a step of one side leaves alone of the other.  A step that searches leaves alone what the
element does and has been asked for, the session, what is published, the entry that plays, the
starts that are still open and the transport, but for what the step itself brings about; the
controller is as it was, or it has taken over new results and lost its marker.  A step that plays
leaves alone the requests and which of them is current, the hash, the search box, the list, the
selection and the details. -/
theorem sides_independent (p : Page) (a : Action) :
    let p' := (p.step a).2
    (a.isPlayback = false →
      p'.element = p.element.change a.brings.element ∧
      p'.element.loads = p.element.loads ∧
      p'.element.plays = p.element.plays ∧
      p'.element.pauses = p.element.pauses ∧
      p'.surroundings.session = a.brings.session.getD p.surroundings.session ∧
      p'.published = p.published ∧
      p'.controller.pointer = p.controller.pointer ∧
      p'.controller.pending = p.controller.pending ∧
      p'.starts = p.starts ∧
      p'.html .player = p.html .player ∧
      (p'.installed = p.installed ∧ p'.controller = p.controller ∨
        ∃ index answer tracks, a = .respond index answer ∧ answer.Lists tracks ∧
          p'.installed = p.installed + 1 ∧
          p'.controller =
            { p.controller with marked := none, results := ⟨p.installed, tracks⟩ })) ∧
    (a.isPlayback = true →
      p'.requests = p.requests ∧
      p'.tickets = p.tickets ∧
      p'.surroundings.hash = p.surroundings.hash ∧
      p'.box = p.box ∧
      p'.controller.results = p.controller.results ∧
      p'.installed = p.installed ∧
      p'.selected = p.selected ∧
      p'.html .header = p.html .header ∧
      p'.html .detail = p.html .detail) := by
  intro p'
  constructor
  · intro ha
    have hside := p.playSide_step ha
    have helement : p'.element = p.element.change a.brings.element :=
      congrArg PlaySide.element hside
    have hdisplay : p'.display = p.display := congrArg PlaySide.display hside
    refine ⟨helement, ?_, ?_, ?_, congrArg PlaySide.session hside,
      congrArg PlaySide.published hside, congrArg PlaySide.pointer hside,
      congrArg PlaySide.pending hside, congrArg PlaySide.starts hside, ?_, ?_⟩
    · rw [helement]
      rfl
    · rw [helement]
      rfl
    · rw [helement]
      rfl
    · simp only [html, markup, hdisplay]
    -- what a search does to the controller is to bring in new results, if anything
    · cases p.searched_step ha with
      | kept _ hcontroller hinstalled _ => exact .inl ⟨hinstalled, hcontroller⟩
      | selected index e _ hpage =>
        have hp : p' = { p with selected := some e } := hpage
        rw [hp]
        exact .inl ⟨rfl, rfl⟩
      | installed index answer tracks hlists hcontroller hinstalled _ =>
        exact .inr ⟨index, answer, tracks, rfl, hlists, hinstalled, hcontroller⟩
  · intro ha
    have hside := p.searchSide_step ha
    have hbox : p'.box = p.box := congrArg SearchSide.box hside
    have hselected : p'.selected = p.selected := congrArg SearchSide.selected hside
    refine ⟨congrArg SearchSide.requests hside, congrArg SearchSide.tickets hside,
      congrArg SearchSide.hash hside, hbox, congrArg SearchSide.results hside,
      congrArg SearchSide.installed hside, hselected, ?_, ?_⟩
    · simp only [html, markup, hbox]
    · simp only [html, markup, hselected]

/-- The first of two listed tracks plays while its search is made once more: new results come in
without a word to the element, and when the track ends, the next one starts without a change to what
was searched for. -/
theorem sides_independent_while_playing :
    let answer := Answer.reply 200
      "\x7b\"results\":[\x7b\"id\":7\x7d,\x7b\"id\":8\x7d]\x7d".toUTF8.toList
    let p := (launch "http://h" {}).run
      [.type "a", .submit, .respond 0 answer, .doubleClick 0, .submit]
    p.element.loads = ["item/7/file"] ∧
      Action.isPlayback (.respond 1 answer) = false ∧
      Action.isPlayback (.event .ended) = true ∧
      (p.step (.respond 1 answer)).2.element.loads = p.element.loads ∧
      (p.step (.event .ended)).2.requests = p.requests := by
  intro answer p
  obtain ⟨-, hloads, -⟩ := (sides_independent p (.respond 1 answer)).1 rfl
  obtain ⟨hrequests, -⟩ := (sides_independent p (.event .ended)).2 rfl
  exact ⟨by decide +kernel, rfl, rfl, hloads, hrequests⟩

end LibraryPlayer.Page
