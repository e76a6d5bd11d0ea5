import LibraryPlayer.Page.View
import LibraryPlayer.Proofs.Page.Sides
import LibraryPlayer.Proofs.Text.Blank

/-!
# Searches

A page begins a search when it is sent off with a box that is not blank, when its hash changes to a
query that the box does not show, and when it is launched with a query in its hash.  `searches`
lists the queries of the searches that a run begins.  As many requests have been sent, in the same
order, and their tickets count them (`HasSearched`): a request is told apart from the later ones as
long as the counter has not come round.

`newest_search_wins`: what the answer to an open request does, after any run.
-/

namespace LibraryPlayer

/-- An answer lists tracks: its status says success, and its body is a reply that lists them. -/
def Answer.Lists (answer : Answer) (tracks : List Track) : Prop :=
  ∃ status body, answer = .reply status body ∧ 200 ≤ status ∧ status ≤ 299 ∧
    Reply.ofJson body = .ok tracks

/-- No other answer has tracks to show. -/
theorem Answer.tracks_eq_ok_iff {answer : Answer} {tracks : List Track} :
    answer.tracks = .ok tracks ↔ answer.Lists tracks := by
  constructor
  · intro h
    -- only a reply with a status of success is read at all
    cases answer with
    | disconnected => exact nomatch h
    | reply status body =>
      rw [Answer.tracks] at h
      split at h
      next hstatus =>
        simp only [isSuccess, Bool.and_eq_true, decide_eq_true_eq] at hstatus
        split at h
        next ts hbody =>
          obtain rfl := Except.ok.inj h
          exact ⟨status, body, rfl, hstatus.1, hstatus.2, hbody⟩
        next => exact nomatch h
      next => exact nomatch h
  · rintro ⟨status, body, rfl, hlow, hhigh, hbody⟩
    simp [Answer.tracks, isSuccess, hlow, hhigh, hbody]

namespace Page

/-- The query of the search that a text begins; none if the text is blank. -/
def searchFor? (text : String) : Option String :=
  if Text.trim text = "" then none else some (Text.trim text)

/-- The query of the search that an action begins. -/
def begun? (p : Page) : Action → Option String
  | .submit => searchFor? p.box
  | .hashChange c =>
    (Hash.queryToRestore? (p.surroundings.change c).hash p.box).bind searchFor?
  | _ => none

/-- The queries of the searches that actions begin, oldest first. -/
def searches (p : Page) : List Action → List String
  | [] => []
  | a :: actions => (p.begun? a).toList ++ (p.step a).2.searches actions

/-- The searches of two runs in a row are those of the one and then those of the other. -/
theorem searches_append (p : Page) (before after : List Action) :
    p.searches (before ++ after) = p.searches before ++ (p.run before).searches after := by
  induction before generalizing p with
  | nil => rfl
  | cons a before ih =>
    rw [List.cons_append, searches, searches, ih, List.append_assoc, run_cons]

/-- The queries of all searches of a page that is launched and then acted upon, oldest first. -/
def searchesFrom (base : String) (s : Surroundings) (actions : List Action) : List String :=
  (searchFor? (launch base s).box).toList ++ (launch base s).searches actions

/-- A page has begun searches for these queries: the counter of tickets counts them, and each has
sent one request, to the address that the client has for its query and with its number. -/
structure HasSearched (p : Page) (client : Client) (queries : List String) : Prop where
  sender : p.client = client
  newest : p.tickets.latest = .ofNat queries.length
  tickets : p.requests.map Request.ticket = (List.range queries.length).map fun i => .ofNat (i + 1)
  urls : p.requests.map (fun r => some r.url) = queries.map client.queryUrl?

variable {p p' : Page} {client : Client} {queries : List String}

/-- Only the client, the counter and the requests matter. -/
theorem HasSearched.congr (h : p.HasSearched client queries)
    (hclient : p'.client = p.client) (htickets : p'.tickets = p.tickets)
    (hrequests : p'.requests = p.requests) : p'.HasSearched client queries where
  sender := hclient.trans h.sender
  newest := htickets ▸ h.newest
  tickets := hrequests ▸ h.tickets
  urls := hrequests ▸ h.urls

/-- A page after a request of it has been answered, whatever the answer. -/
def answered (p : Page) (index : Nat) (request : Request) : Page :=
  { p with requests := p.requests.set index { request with answered := true } }

/-! ## Beginning a search -/

/-- A blank text begins no search. -/
theorem search_of_blank {text : String} (h : Text.trim text = "") :
    p.search text = p := by
  simp [search, h]

/-- A search for a text that is not blank sends one request, with the next ticket, and the hash
remembers the query. -/
theorem search_of_not_blank (p : Page) {text : String} (h : Text.trim text ≠ "") :
    ∃ url, p.client.queryUrl? (Text.trim text) = some url ∧
      p.search text = { p.withHash (Hash.ofQuery (Text.trim text)) with
        tickets := p.tickets.begin
        requests := p.requests ++ [⟨url, p.tickets.begin.latest, false⟩] } := by
  -- a query that is not blank has an address, so exactly one request is sent
  have hsome : (p.client.queryUrl? (Text.trim text)).isSome :=
    (p.client.queryUrl?_isSome_iff _).2 (by rwa [Text.trim_trim])
  obtain ⟨url, hurl⟩ := Option.isSome_iff_exists.1 hsome
  exact ⟨url, hurl, by simp [Page.search, h, hurl]⟩

/-- A search takes the next ticket and sends one request. -/
theorem HasSearched.search (h : p.HasSearched client queries) (text : String) :
    (p.search text).HasSearched client (queries ++ (searchFor? text).toList) := by
  by_cases hblank : Text.trim text = ""
  · simpa [search_of_blank hblank, searchFor?, hblank] using h
  · obtain ⟨url, hurl, hsearch⟩ := p.search_of_not_blank hblank
    have hnext : p.tickets.latest + 1 = .ofNat (queries.length + 1) := by
      rw [h.newest, UInt64.ofNat_add]
      rfl
    rw [hsearch, searchFor?, if_neg hblank]
    constructor
    · exact h.sender
    · simpa [Tickets.begin] using hnext
    · simp [h.tickets, List.range_succ, Tickets.begin, hnext]
    · rw [h.sender] at hurl
      simp [h.urls, hurl]

/-! ## Steps -/

/-- An installation keeps what a page has searched for. -/
theorem HasSearched.receive (h : p.HasSearched client queries) (request : Request)
    (answer : Answer) : (p.receive request answer).HasSearched client queries := by
  -- new results come in, but neither the counter nor the requests change
  rw [Page.receive]
  split
  · split
    · exact h.congr rfl rfl rfl
    · exact h
  · exact h

/-- That a request has been answered changes neither its address nor its ticket. -/
theorem HasSearched.answered (h : p.HasSearched client queries) {index : Nat} {request : Request}
    (hr : p.requests[index]? = some request) :
    (p.answered index request).HasSearched client queries := by
  have hset {β : Type} (f : Request → β) (hf : f { request with answered := true } = f request) :
      (p.answered index request).requests.map f = p.requests.map f := map_set_of_eq f hr hf
  refine ⟨h.sender, h.newest, ?_, ?_⟩
  · exact (hset Request.ticket rfl).trans h.tickets
  · exact (hset _ rfl).trans h.urls

/-- A step adds the search that it begins, if it begins one. -/
theorem HasSearched.step (h : p.HasSearched client queries) (a : Action) :
    (p.step a).2.HasSearched client (queries ++ (p.begun? a).toList) := by
  by_cases hplay : a.isPlayback = true
  · -- what plays touches nothing of the side that searches
    have hside := p.searchSide_step hplay
    have hnone : p.begun? a = none := by
      cases a with
      | submit => exact nomatch hplay
      | hashChange c => exact nomatch hplay
      | _ => rfl
    rw [hnone, Option.toList_none, List.append_nil]
    exact h.congr (congrArg SearchSide.client hside) (congrArg SearchSide.tickets hside)
      (congrArg SearchSide.requests hside)
  · cases a with
    | submit =>
      simp only [Page.step, begun?]
      exact h.search p.box
    | hashChange c =>
      have h' : HasSearched { p with surroundings := p.surroundings.change c } client queries :=
        h.congr rfl rfl rfl
      simp only [Page.step, followHash, begun?]
      cases Hash.queryToRestore? (p.surroundings.change c).hash p.box with
      | none => simpa using h'
      | some query =>
        -- the query goes into the box first, and is searched for from there
        have hbox : HasSearched { p with
            surroundings := p.surroundings.change c, box := query } client queries :=
          h'.congr rfl rfl rfl
        simp only [Option.bind_some]
        exact hbox.search query
    | respond index answer =>
      have hnone : queries ++ (p.begun? (.respond index answer)).toList = queries := by
        simp [begun?]
      rw [hnone]
      simp only [Page.step]
      split
      next request hr =>
        split
        · exact h
        · exact (h.answered hr).receive request answer
      next => exact h
    | click index =>
      simp only [Page.step, begun?, Option.toList_none, List.append_nil]
      split
      · exact h.congr rfl rfl rfl
      · exact h
    | type text =>
      have h' : HasSearched { p with box := text } client queries := h.congr rfl rfl rfl
      simpa only [Page.step, begun?, Option.toList_none, List.append_nil] using h'
    | change c =>
      have h' : HasSearched { p with surroundings := p.surroundings.change c } client queries :=
        h.congr rfl rfl rfl
      simpa only [Page.step, begun?, Option.toList_none, List.append_nil] using h'
    | _ => exact absurd rfl hplay

/-! ## Runs -/

/-- A run adds the searches that it begins. -/
theorem HasSearched.run (h : p.HasSearched client queries) (actions : List Action) :
    (p.run actions).HasSearched client (queries ++ p.searches actions) := by
  induction actions generalizing p queries with
  | nil => simpa only [searches, run_nil, List.append_nil] using h
  | cons a actions ih =>
    rw [run_cons, searches, ← List.append_assoc]
    exact ih (h.step a)

/-- To begin a search leaves the box as it is. -/
theorem search_box (p : Page) (text : String) : (p.search text).box = p.box := by
  simp only [search]
  split <;> rfl

/-- A page is launched by searching for what its box shows; before that, nothing was sent. -/
theorem launch_eq (base : String) (s : Surroundings) :
    ∃ p : Page, launch base s = p.search p.box ∧ p.HasSearched (.ofBase base) [] := by
  unfold launch
  refine ⟨_, rfl, ?_⟩
  exact { sender := rfl, newest := by simp, tickets := rfl, urls := rfl }

/-- A page that is launched and then acted upon has begun the searches that it should. -/
theorem hasSearched_from (base : String) (s : Surroundings) (actions : List Action) :
    ((launch base s).run actions).HasSearched (.ofBase base) (searchesFrom base s actions) := by
  obtain ⟨p, hp, h⟩ := launch_eq base s
  have hbox : (launch base s).box = p.box := by rw [hp, search_box]
  -- the first search is that of the box that the page is launched with, if it is not blank
  have hlaunch : (launch base s).HasSearched (.ofBase base)
      (searchFor? (launch base s).box).toList := by
    rw [hbox, hp]
    simpa only [List.nil_append] using h.search p.box
  exact hlaunch.run actions

/-! ## Answers -/

/-- As long as the counter has not come round, the newest ticket is that of the last request. -/
theorem HasSearched.isCurrent_iff (h : p.HasSearched client queries)
    (few : queries.length < UInt64.size) {index : Nat} {request : Request}
    (sent : p.requests[index]? = some request) :
    p.tickets.isCurrent request.ticket = true ↔ index + 1 = queries.length := by
  have hlength : p.requests.length = queries.length := by
    simpa using congrArg List.length h.tickets
  -- tickets are handed out from one on, so that of the request is one more than its index
  obtain ⟨hi, rfl⟩ := List.getElem?_eq_some_iff.1 sent
  have hticket : p.requests[index].ticket = .ofNat (index + 1) := by
    have : (p.requests.map Request.ticket)[index]? =
        ((List.range queries.length).map fun i => UInt64.ofNat (i + 1))[index]? := by rw [h.tickets]
    simpa [hi, hlength ▸ hi] using this
  rw [Tickets.isCurrent, beq_iff_eq, h.newest, hticket]
  constructor
  · intro heq
    -- below the size of the counter, equal tickets are equal numbers
    have htoNat := congrArg UInt64.toNat heq
    rw [UInt64.toNat_ofNat_of_lt' few, UInt64.toNat_ofNat_of_lt' (by
      show index + 1 < UInt64.size
      omega)] at htoNat
    exact htoNat.symm
  · intro heq
    rw [heq]

/-- What the answer to an open request does: its tracks are shown if there are any to be read and
the request is the newest one, and otherwise nothing happens. -/
theorem HasSearched.step_respond (h : p.HasSearched client queries)
    (few : queries.length < UInt64.size) {index : Nat} {request : Request}
    (sent : p.requests[index]? = some request) (isOpen : request.answered = false)
    (answer : Answer) :
    (p.step (.respond index answer)).2 =
      match answer.tracks with
      | .ok tracks =>
        if index + 1 = queries.length then (p.answered index request).install tracks
        else p.answered index request
      | .error _ => p.answered index request := by
  have hstep : (p.step (.respond index answer)).2 =
      (p.answered index request).receive request answer := by
    simp only [Page.step, sent, isOpen]
    rfl
  -- marking the request as answered does not touch the counter
  have hcurrent : (p.answered index request).tickets.isCurrent request.ticket = true ↔
      index + 1 = queries.length := h.isCurrent_iff few sent
  rw [hstep, Page.receive]
  cases answer.tracks with
  | error failure => rfl
  | ok tracks => simp only [hcurrent]

/-- Newly installed tracks make up the whole list, in order, with nothing selected and no row
marked. -/
theorem install_shows (p : Page) (tracks : List Track) :
    (p.install tracks).controller.results.entries.map Entry.track = tracks ∧
    (p.install tracks).selected = none ∧
    (∀ e, (p.install tracks).controller.isMarked e = false) ∧
    (p.install tracks).markup .entities =
      View.element "div" [("id", "entities")] [
        View.element "ul" [("id", "results"), ("class", "no-select")]
          (tracks.map fun t => View.row t false false)] ∧
    (p.install tracks).markup .detail = View.detail none := by
  have hrows : ((⟨p.installed, tracks⟩ : ResultSet).entries.map fun e =>
      View.row e.track false false) = tracks.map fun t => View.row t false false :=
    ResultSet.map_entries _ fun t => View.row t false false
  refine ⟨ResultSet.map_track_entries _, rfl, fun _ => rfl, ?_, rfl⟩
  rw [← hrows]
  rfl

/-- The newest search wins.  At any time as many requests have been sent as searches were begun, in
the same order, each to the address of its query.  The answer to an open request brings new results
exactly if it lists tracks and no search has begun after that of the request.  What it brings makes
up the whole list; what it does not bring leaves everything as it was, except that the request is
no longer open.  A search for nothing but blanks is never begun. -/
theorem newest_search_wins (base : String) (s : Surroundings) (actions : List Action)
    (few : (searchesFrom base s actions).length < UInt64.size) (index : Nat) (request : Request)
    (sent : ((launch base s).run actions).requests[index]? = some request)
    (isOpen : request.answered = false) (answer : Answer) :
    let p := (launch base s).run actions
    let p' := (p.step (.respond index answer)).2
    let isNewest := index + 1 = (searchesFrom base s actions).length
    (∀ n, ((launch base s).run (actions.take n)).requests.map (fun r => some r.url) =
      (searchesFrom base s (actions.take n)).map (Client.ofBase base).queryUrl?) ∧
    (∀ tracks, p'.installed = p.installed + 1 ∧ p'.controller.results = ⟨p.installed, tracks⟩ ↔
      answer.Lists tracks ∧ isNewest) ∧
    (∀ tracks, answer.Lists tracks → isNewest →
      p'.controller.results.entries.map Entry.track = tracks ∧
      p'.selected = none ∧
      (∀ e, p'.controller.isMarked e = false) ∧
      p'.markup .entities =
        View.element "div" [("id", "entities")] [
          View.element "ul" [("id", "results"), ("class", "no-select")]
            (tracks.map fun t => View.row t false false)] ∧
      p'.markup .detail = View.detail none) ∧
    ((∀ tracks, answer.Lists tracks → ¬ isNewest) →
      p' = { p with requests := p.requests.set index { request with answered := true } } ∧
      (∀ other, other ≠ index → p'.requests[other]? = p.requests[other]?) ∧
      ∀ sec, p'.html sec = p.html sec) ∧
    (Text.trim p.box = "" → (p.step .submit).2 = p) := by
  intro p p' isNewest
  have h : p.HasSearched (.ofBase base) (searchesFrom base s actions) :=
    hasSearched_from base s actions
  have hp' := h.step_respond few sent isOpen answer
  -- the answer either brings its tracks in or leaves all but the request as it was
  have hnew {tracks : List Track} (hlists : answer.Lists tracks) (hnewest : isNewest) :
      p' = (p.answered index request).install tracks := by
    rw [Answer.tracks_eq_ok_iff.2 hlists] at hp'
    exact hp'.trans (if_pos hnewest)
  have hkept (hnot : ∀ tracks, answer.Lists tracks → ¬ isNewest) :
      p' = p.answered index request := by
    cases htracks : answer.tracks with
    | error failure => rwa [htracks] at hp'
    | ok tracks =>
      rw [htracks] at hp'
      exact hp'.trans (if_neg (hnot tracks (Answer.tracks_eq_ok_iff.1 htracks)))
  refine ⟨fun n => (hasSearched_from base s (actions.take n)).urls, ?_, ?_, ?_, ?_⟩
  · intro tracks
    constructor
    · rintro ⟨hinstalled, hresults⟩
      by_cases hnot : ∀ ts, answer.Lists ts → ¬ isNewest
      · -- nothing was installed, so the number of installations is the old one
        rw [hkept hnot] at hinstalled
        exact absurd hinstalled (Nat.ne_of_lt (Nat.lt_succ_self p.installed))
      · obtain ⟨ts, hts⟩ := not_forall.1 hnot
        obtain ⟨hlists, hnewest⟩ : answer.Lists ts ∧ isNewest := by simpa using hts
        rw [hnew hlists hnewest] at hresults
        obtain rfl : ts = tracks := congrArg ResultSet.tracks hresults
        exact ⟨hlists, hnewest⟩
    · rintro ⟨hlists, hnewest⟩
      rw [hnew hlists hnewest]
      exact ⟨rfl, rfl⟩
  · intro tracks hlists hnewest
    rw [hnew hlists hnewest]
    exact install_shows _ tracks
  · intro hnot
    rw [hkept hnot]
    refine ⟨rfl, fun other hother => ?_, fun sec => by cases sec <;> rfl⟩
    exact List.getElem?_set_ne hother.symm
  · intro hblank
    simp only [Page.step]
    exact search_of_blank hblank

/-- Two searches have begun and neither has been answered: the answer to the second one is shown,
and the same answer to the first one is not. -/
theorem newest_search_wins_of_two :
    (searchesFrom "http://h" {} [.type "a", .submit, .type "b", .submit]).length < UInt64.size
      ∧ let p := (launch "http://h" {}).run [.type "a", .submit, .type "b", .submit]
        let answer := Answer.reply 200 "\x7b\"results\":[\x7b\"id\":7\x7d]\x7d".toUTF8.toList
        (p.step (.respond 1 answer)).2.controller.results.entries.map Entry.track = [{ id := 7 }]
          ∧ (p.step (.respond 0 answer)).2.html .entities = p.html .entities := by
  have hbody : Reply.ofJson "\x7b\"results\":[\x7b\"id\":7\x7d]\x7d".toUTF8.toList =
      .ok [{ id := 7 }] := by decide +kernel
  have hfew : (searchesFrom "http://h" {} [.type "a", .submit, .type "b", .submit]).length <
      UInt64.size := by decide
  obtain ⟨-, -, hnew, -, -⟩ := newest_search_wins "http://h" {}
    [.type "a", .submit, .type "b", .submit] hfew 1 ⟨"http://h/item/query/b", 2, false⟩
    (by decide) rfl (.reply 200 "\x7b\"results\":[\x7b\"id\":7\x7d]\x7d".toUTF8.toList)
  obtain ⟨-, -, -, hstale, -⟩ := newest_search_wins "http://h" {}
    [.type "a", .submit, .type "b", .submit] hfew 0 ⟨"http://h/item/query/a", 1, false⟩
    (by decide) rfl (.reply 200 "\x7b\"results\":[\x7b\"id\":7\x7d]\x7d".toUTF8.toList)
  -- the second request is the newest one, the first is not
  refine ⟨hfew, ?_, ?_⟩
  · exact (hnew _ ⟨200, _, rfl, by decide, by decide, hbody⟩ (by decide)).1
  · exact (hstale fun _ _ => by decide).2.2 .entities

end Page

end LibraryPlayer
