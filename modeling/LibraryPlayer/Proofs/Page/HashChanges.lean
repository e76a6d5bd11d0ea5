import LibraryPlayer.Proofs.Location.Hash
import LibraryPlayer.Proofs.Page.Searches

/-!
# Changes of the hash

When the location reports a change of its hash and there is a query in it, the page looks at its
box: a query that the box shows already is left alone (`step_hashChange_of_shown`), and any other
one goes into the box and is searched for (`step_hashChange_of_not_shown`).  Either way the box
shows the query of the hash afterwards (`ShowsHash`), and as long as the hash stays in place, no
further report of it does anything (`ShowsHash.run`).

The box stands in for the newest search.  It shows the query of the newest search as long as nobody
has typed since (`ShowsNewest`), and only then it is the newest search that decides.

* `hashChange_searches_unless_shown`: what a change of the hash does, after any run.
* `hashChange_of_typed`: a text in the box that was not sent off is taken for the newest search.
-/

namespace LibraryPlayer

/-- The hash is the same after the change. -/
def SurroundingsChange.Keeps (c : SurroundingsChange) (hash : String) : Prop :=
  c.hash = none ∨ c.hash = some hash

/-- A change that keeps the hash keeps it. -/
theorem SurroundingsChange.Keeps.hash_change {c : SurroundingsChange} {s : Surroundings}
    (h : c.Keeps s.hash) : (s.change c).hash = s.hash := by
  obtain h | h := h
  · simp [Surroundings.change, h]
  · simp [Surroundings.change, h]

namespace Page

variable {p : Page} {query : String}

/-! ## Following the hash -/

variable {c : SurroundingsChange}

/-- A query that the box shows already is left alone. -/
theorem step_hashChange_of_shown (hquery : Hash.query? (p.surroundings.change c).hash = some query)
    (h : Text.trim p.box = query) :
    (p.step (.hashChange c)).2 = { p with surroundings := p.surroundings.change c } := by
  simp only [step, followHash]
  rw [Hash.queryToRestore?_of_shown hquery h]

/-- Any other query goes into the box and is searched for: one request is sent, and the hash is the
query's own. -/
theorem step_hashChange_of_not_shown
    (hquery : Hash.query? (p.surroundings.change c).hash = some query)
    (h : Text.trim p.box ≠ query) :
    ∃ url, p.client.queryUrl? query = some url ∧
      (p.step (.hashChange c)).2 = { p with
        surroundings := { p.surroundings.change c with hash := Hash.ofQuery query }
        box := query
        tickets := p.tickets.begin
        requests := p.requests ++ [⟨url, p.tickets.begin.latest, false⟩] } := by
  obtain ⟨htrim, hne⟩ := Hash.trim_of_query? hquery
  -- the query of a hash is never blank, so the search is begun
  have hblank : Text.trim query ≠ "" := by rwa [htrim]
  obtain ⟨url, hurl, hsearch⟩ :=
    search_of_not_blank { p with surroundings := p.surroundings.change c, box := query } hblank
  rw [htrim] at hurl hsearch
  refine ⟨url, hurl, ?_⟩
  simp only [step, followHash]
  rw [Hash.queryToRestore?_eq_some_iff.2 ⟨hquery, Ne.symm h⟩]
  exact hsearch

/-! ## The box and the hash -/

/-- The box shows the query of the hash, with or without blanks around it. -/
def ShowsHash (p : Page) : Prop := Hash.query? p.surroundings.hash = some (Text.trim p.box)

/-- A report of the hash that the box shows does nothing. -/
theorem ShowsHash.step (h : p.ShowsHash) (hc : c.Keeps p.surroundings.hash) :
    (p.step (.hashChange c)).2 = { p with surroundings := p.surroundings.change c } := by
  have hquery : Hash.query? (p.surroundings.change c).hash = some (Text.trim p.box) := by
    rw [hc.hash_change]
    exact h
  exact step_hashChange_of_shown hquery rfl

/-- Nor do any number of them. -/
theorem ShowsHash.run (h : p.ShowsHash) (events : List SurroundingsChange)
    (hevents : ∀ c ∈ events, c.Keeps p.surroundings.hash) :
    p.run (events.map .hashChange) =
      { p with surroundings := events.foldl (fun s c => s.change c) p.surroundings } := by
  induction events generalizing p with
  | nil => rfl
  | cons c events ih =>
    have hc := hevents c List.mem_cons_self
    have hhash := hc.hash_change
    rw [List.map_cons, run_cons, h.step hc, List.foldl_cons]
    -- the hash is still in place for the other reports
    refine ih ?_ fun d hd => ?_
    · rw [ShowsHash, hhash]
      exact h
    · rw [hhash]
      exact hevents d (List.mem_cons_of_mem _ hd)

/-! ## The box and the newest search -/

/-- A change of the hash begins a search for the query in it, unless the box shows that already. -/
theorem begun?_hashChange
    (h : Hash.query? (p.surroundings.change c).hash = some query) :
    p.begun? (.hashChange c) = if Text.trim p.box = query then none else some query := by
  obtain ⟨htrim, hne⟩ := Hash.trim_of_query? h
  rw [begun?]
  split
  next hshown => rw [Hash.queryToRestore?_of_shown h hshown, Option.bind_none]
  next hshown =>
    rw [Hash.queryToRestore?_eq_some_iff.2 ⟨h, Ne.symm hshown⟩, Option.bind_some, searchFor?,
      htrim, if_neg hne]

/-- Whatever search an action begins, the box shows its query. -/
theorem box_of_begun {a : Action} (h : p.begun? a = some query) :
    Text.trim (p.step a).2.box = query := by
  cases a with
  | submit =>
    simp only [begun?, searchFor?] at h
    split at h
    · exact absurd h (Option.some_ne_none _).symm
    · simp only [step, search_box]
      exact Option.some.inj h
  -- a query to restore goes into the box as it is, without blanks around it
  | hashChange c =>
    obtain ⟨restored, hrestored, -⟩ := Option.bind_eq_some_iff.1 h
    obtain ⟨hquery, hshown⟩ := Hash.queryToRestore?_eq_some_iff.1 hrestored
    rw [begun?_hashChange hquery, if_neg hshown.symm] at h
    obtain rfl : restored = query := Option.some.inj h
    obtain ⟨url, -, hstep⟩ := step_hashChange_of_not_shown hquery hshown.symm
    rw [hstep]
    exact (Hash.trim_of_query? hquery).1
  | _ => simp [begun?] at h

/-- No answer changes the box. -/
theorem box_receive (p : Page) (request : Request) (answer : Answer) :
    (p.receive request answer).box = p.box := by
  rw [receive]
  split
  · split <;> rfl
  · rfl

/-- Whether an action is the user's typing. -/
def Action.isTyping : Action → Bool
  | .type _ => true
  | _ => false

/-- An action that neither begins a search nor is typing leaves the box as it is. -/
theorem box_of_not_begun {a : Action} (h : p.begun? a = none) (htyping : a.isTyping = false) :
    (p.step a).2.box = p.box := by
  -- what plays touches nothing of the side that searches
  by_cases hplay : a.isPlayback = true
  · exact congrArg SearchSide.box (p.searchSide_step hplay)
  · cases a with
    | type text => simp [Action.isTyping] at htyping
    | submit => exact p.search_box p.box
    | hashChange c =>
      simp only [step, followHash]
      split
      next query hrestored =>
        -- a query to restore would have begun a search
        obtain ⟨hquery, hshown⟩ := Hash.queryToRestore?_eq_some_iff.1 hrestored
        rw [begun?_hashChange hquery, if_neg hshown.symm] at h
        exact absurd h (Option.some_ne_none _)
      next => rfl
    | respond index answer =>
      simp only [step]
      split
      · split
        · rfl
        · exact box_receive _ _ _
      · rfl
    | click index =>
      simp only [step]
      split <;> rfl
    | change c => rfl
    | _ => exact absurd rfl hplay

/-- The box shows the query of the newest search; before the first search it is blank. -/
def ShowsNewest (p : Page) (queries : List String) : Prop :=
  Text.trim p.box = queries.getLast?.getD ""

/-- Whether, at the end of a run, the user has typed since the newest search was begun; `typed` says
so of its beginning. -/
def typedSince (p : Page) (typed : Bool) : List Action → Bool
  | [] => typed
  | a :: actions =>
    (p.step a).2.typedSince (a.isTyping || typed && (p.begun? a).isNone) actions

/-- A search brings the box in step with the newest search, and only typing brings it out. -/
theorem showsNewest_step {typed : Bool} {queries : List String}
    (h : typed = false → p.ShowsNewest queries) {a : Action}
    (ha : (a.isTyping || typed && (p.begun? a).isNone) = false) :
    (p.step a).2.ShowsNewest (queries ++ (p.begun? a).toList) := by
  rw [Bool.or_eq_false_iff] at ha
  cases hbegun : p.begun? a with
  | some query =>
    rw [ShowsNewest, box_of_begun hbegun, Option.toList_some, List.getLast?_concat,
      Option.getD_some]
  | none =>
    -- no search was begun, so the user has not typed before either
    have htyped : typed = false := by simpa [hbegun] using ha.2
    rw [ShowsNewest, box_of_not_begun hbegun ha.1, Option.toList_none, List.append_nil]
    exact h htyped

/-- The box shows the query of the newest search at the end of a run, if nobody has typed since it
was begun. -/
theorem showsNewest_run {typed : Bool} {queries : List String}
    (h : typed = false → p.ShowsNewest queries) (actions : List Action)
    (hactions : p.typedSince typed actions = false) :
    (p.run actions).ShowsNewest (queries ++ p.searches actions) := by
  induction actions generalizing p typed queries with
  | nil => simpa only [searches, run_nil, List.append_nil] using h hactions
  | cons a actions ih =>
    rw [run_cons, searches, ← List.append_assoc]
    exact ih (showsNewest_step h) hactions

/-- A page is launched with the query of its first search in the box, or with a blank one. -/
theorem showsNewest_launch (base : String) (s : Surroundings) :
    (launch base s).ShowsNewest (searchFor? (launch base s).box).toList := by
  rw [ShowsNewest, searchFor?]
  split
  next hblank => exact hblank
  next => rfl

/-! ## What decides -/

/-- One action more adds the search that it begins. -/
theorem searchesFrom_concat (base : String) (s : Surroundings) (actions : List Action)
    (a : Action) :
    searchesFrom base s (actions ++ [a]) =
      searchesFrom base s actions ++ (((launch base s).run actions).begun? a).toList := by
  rw [searchesFrom, searches_append, ← List.append_assoc, searches, searches, List.append_nil,
    ← searchesFrom]

/-- While the box shows the query of the newest search, it shows another query exactly if that is
the newest one's. -/
theorem ShowsNewest.shown_iff {queries : List String} (h : p.ShowsNewest queries)
    (hne : query ≠ "") : Text.trim p.box = query ↔ queries.getLast? = some query := by
  rw [show Text.trim p.box = queries.getLast?.getD "" from h]
  -- before the first search the box is blank, and no query of a hash is
  cases queries.getLast? with
  | none => simpa using hne.symm
  | some newest => simp

/-- What a change of the hash to one with a query in it does, after any run.  The box decides: a
query that it shows, with or without blanks around it, is left alone, and for any other one exactly
one search is begun.  If nobody has typed since the newest search was begun, the box shows the query
of that search, and as long as it does, it is the newest search that decides: the newest search
afterwards is for the query, and a request is sent exactly if it was not before. -/
theorem hashChange_searches_unless_shown (base : String) (s : Surroundings) (actions : List Action)
    (c : SurroundingsChange) (query : String)
    (hquery : Hash.query? (((launch base s).run actions).surroundings.change c).hash =
      some query) :
    let p := (launch base s).run actions
    let p' := (p.step (.hashChange c)).2
    let before := searchesFrom base s actions
    let after := searchesFrom base s (actions ++ [.hashChange c])
    Text.trim p'.box = query ∧
    (Text.trim p.box = query →
      after = before ∧ p' = { p with surroundings := p.surroundings.change c }) ∧
    (Text.trim p.box ≠ query →
      after = before ++ [query] ∧ p'.box = query ∧
      p'.surroundings.hash = Hash.ofQuery query ∧
      ∃ url, (Client.ofBase base).queryUrl? query = some url ∧
        p'.requests = p.requests ++ [⟨url, p'.tickets.latest, false⟩]) ∧
    (p'.requests ≠ p.requests ↔ Text.trim p.box ≠ query) ∧
    ((launch base s).typedSince false actions = false → p.ShowsNewest before) ∧
    (p.ShowsNewest before →
      after.getLast? = some query ∧
      (p'.requests ≠ p.requests ↔ before.getLast? ≠ some query)) := by
  intro p p' before after
  obtain ⟨htrim, hne⟩ := Hash.trim_of_query? hquery
  have hsender : p.client = .ofBase base := (hasSearched_from base s actions).sender
  have hafter : after = before ++ (p.begun? (.hashChange c)).toList :=
    searchesFrom_concat base s actions _
  rw [begun?_hashChange hquery] at hafter
  -- the two cases of the box, from which all the rest follows
  have hshown (h : Text.trim p.box = query) :
      after = before ∧ p' = { p with surroundings := p.surroundings.change c } := by
    rw [if_pos h, Option.toList_none, List.append_nil] at hafter
    exact ⟨hafter, step_hashChange_of_shown hquery h⟩
  have hsearched (h : Text.trim p.box ≠ query) :
      after = before ++ [query] ∧ p'.box = query ∧
      p'.surroundings.hash = Hash.ofQuery query ∧
      ∃ url, (Client.ofBase base).queryUrl? query = some url ∧
        p'.requests = p.requests ++ [⟨url, p'.tickets.latest, false⟩] := by
    rw [if_neg h, Option.toList_some] at hafter
    obtain ⟨url, hurl, hstep⟩ := step_hashChange_of_not_shown hquery h
    rw [show p' = _ from hstep]
    exact ⟨hafter, rfl, rfl, url, hsender ▸ hurl, rfl⟩
  have hrequests : p'.requests ≠ p.requests ↔ Text.trim p.box ≠ query := by
    constructor
    · exact fun hnew h => hnew (by rw [(hshown h).2])
    · intro h heq
      obtain ⟨-, -, -, url, -, hnew⟩ := hsearched h
      simp [hnew] at heq
  refine ⟨?_, hshown, hsearched, hrequests, ?_, ?_⟩
  · by_cases h : Text.trim p.box = query
    · rw [(hshown h).2]
      exact h
    · rw [(hsearched h).2.1, htrim]
  · intro htyped
    exact showsNewest_run (fun _ => showsNewest_launch base s) actions htyped
  · intro hnewest
    refine ⟨?_, hrequests.trans (not_congr (hnewest.shown_iff hne))⟩
    by_cases h : Text.trim p.box = query
    · rw [(hshown h).1]
      exact (hnewest.shown_iff hne).1 h
    · rw [(hsearched h).1, List.getLast?_concat]

/-- Two searches, and then back to the hash of the first one: it is searched for again. -/
theorem hashChange_searches_unless_shown_back :
    let actions : List Action := [.type "a", .submit, .type " b ", .submit]
    let p := (launch "http://h" {}).run actions
    let p' := (p.step (.hashChange { hash := some "#item/query/a" })).2
    Hash.query? (p.surroundings.change { hash := some "#item/query/a" }).hash = some "a" ∧
    (searchesFrom "http://h" {} (actions ++
      [.hashChange { hash := some "#item/query/a" }])).getLast? = some "a" ∧
    p'.requests ≠ p.requests ∧ p'.box = "a" := by
  intro actions p p'
  have hquery : Hash.query? (p.surroundings.change { hash := some "#item/query/a" }).hash =
      some "a" := by decide +kernel
  obtain ⟨-, -, hsearched, -, htyped, hnewest⟩ := hashChange_searches_unless_shown "http://h" {}
    [.type "a", .submit, .type " b ", .submit] { hash := some "#item/query/a" } "a" hquery
  obtain ⟨hlast, hrequests⟩ := hnewest (htyped (by decide +kernel))
  exact ⟨hquery, hlast, hrequests.2 (by decide +kernel), (hsearched (by decide +kernel)).2.1⟩

/-- A text that was typed and not sent off is taken for the newest search.  After a search for `a`
the user types `b`: a change of the hash to the query `b` then begins no search, so that the newest
one stays that for `a`, while a report of the hash of `a`, which is still in place, begins a second
search for `a` and overwrites what was typed. -/
theorem hashChange_of_typed :
    let actions : List Action := [.type "a", .submit, .type "b"]
    let p := (launch "http://h" {}).run actions
    let other := (p.step (.hashChange { hash := some "#item/query/b" })).2
    let echo := (p.step (.hashChange {})).2
    (searchesFrom "http://h" {} actions).getLast? = some "a" ∧
    Hash.query? other.surroundings.hash = some "b" ∧ other.requests = p.requests ∧
    (searchesFrom "http://h" {} (actions ++
      [.hashChange { hash := some "#item/query/b" }])).getLast? = some "a" ∧
    Hash.query? p.surroundings.hash = some "a" ∧
    echo.requests.length = p.requests.length + 1 ∧ p.box = "b" ∧ echo.box = "a" := by
  intro actions p other echo
  refine ⟨by decide +kernel, by decide +kernel, by decide +kernel, by decide +kernel,
    by decide +kernel, by decide +kernel, by decide +kernel, by decide +kernel⟩

end Page

end LibraryPlayer
