import LibraryPlayer.Browser.Listening
import Mathlib.Data.List.Basic

/-!
# What the handlers of the audio element see

The events that handlers see are collected with a bound on how many handlers can run at once.
The number of handlers is always enough of a bound, since a handler that runs takes no second
event.

* `seen_congr`: any bound gives the same events once it reaches the number of idle handlers.
* `seen_eq`: the equation of the collection without a bound that runs out.
* `mem_fire`: handlers see nothing that none of them listens to.
* `fire_eq_nil_iff`: an event passes unseen exactly if nothing listens for it.
* `fire_bind`: the first handler of a page sees each of its events once, whatever it fires in turn.
-/

namespace LibraryPlayer.Browser

variable {b : Browser} {handlers : List Handler} {running : List Nat} {event : String}

/-! ## The bound is enough -/

/-- The places of the handlers that are not running. -/
def idle (handlers : List Handler) (running : List Nat) : List Nat :=
  (List.range handlers.length).filter (· ∉ running)

/-- A place is idle if there is a handler at it that is not running. -/
theorem mem_idle {i : Nat} : i ∈ idle handlers running ↔ i < handlers.length ∧ i ∉ running := by
  simp [idle]

/-- With one more handler running there are fewer idle ones. -/
theorem length_idle_cons_lt {i : Nat} (h : i ∈ idle handlers running) :
    (idle handlers (i :: running)).length < (idle handlers running).length := by
  have hidle : idle handlers (i :: running) = (idle handlers running).filter (· ≠ i) := by
    simp [idle, List.filter_filter, not_or]
  rw [hidle, List.length_filter_lt_length_iff_exists]
  exact ⟨i, h, by simp⟩

/-- When all handlers are running, none of them sees anything. -/
theorem seen_of_idle_eq_nil (h : idle handlers running = []) (depth : Nat) :
    seen handlers depth running event = [] := by
  cases depth with
  | zero => rfl
  | succ depth =>
    rw [seen, List.flatMap_eq_nil_iff]
    rintro ⟨handler, i⟩ hmem
    have hrunning : i ∈ running := by
      by_contra hi
      have : i ∈ idle handlers running := mem_idle.2 ⟨(List.mem_zipIdx' hmem).1, hi⟩
      simp [h] at this
    simp [hrunning]

/-- Any two bounds that reach the number of idle handlers give the same events. -/
theorem seen_congr {d d' : Nat} (h : (idle handlers running).length ≤ d)
    (h' : (idle handlers running).length ≤ d') :
    seen handlers d running event = seen handlers d' running event := by
  -- one more handler is running in each deeper call, so that both bounds still reach
  induction d generalizing d' running event with
  | zero =>
    have hnil := List.eq_nil_of_length_eq_zero (Nat.le_zero.1 h)
    rw [seen_of_idle_eq_nil hnil, seen_of_idle_eq_nil hnil]
  | succ d ih =>
    cases d' with
    | zero =>
      have hnil := List.eq_nil_of_length_eq_zero (Nat.le_zero.1 h')
      rw [seen_of_idle_eq_nil hnil, seen_of_idle_eq_nil hnil]
    | succ d' =>
      simp only [seen]
      refine List.flatMap_congr fun ⟨handler, i⟩ hmem => ?_
      split
      case isFalse => rfl
      case isTrue hcond =>
        have hidle : i ∈ idle handlers running :=
          mem_idle.2 ⟨(List.mem_zipIdx' hmem).1, (by simpa using hcond : _ ∧ i ∉ running).2⟩
        have hlt := length_idle_cons_lt hidle
        cases handler.nested with
        | none => rfl
        | some e =>
          have hdeep : seen handlers d (i :: running) e = seen handlers d' (i :: running) e :=
            ih (by omega) (by omega)
          simp only [hdeep]

/-- The events that are seen, by one equation: each idle handler that listens sees the event, and
while it runs the others see what it fires. -/
theorem seen_eq {d : Nat} (h : (idle handlers running).length ≤ d) :
    seen handlers d running event = handlers.zipIdx.flatMap fun (handler, i) =>
      if handler.events.contains event && !running.contains i then
        event :: match handler.nested with
          | some e => if e = event then [] else seen handlers d (i :: running) e
          | none => []
      else [] := by
  rw [seen_congr h (Nat.le_succ_of_le h)]
  rfl

/-! ## What is seen -/

/-- Handlers see only events that some of them listens to. -/
theorem mem_seen {d : Nat} {e : String} (h : e ∈ seen handlers d running event) :
    ∃ handler ∈ handlers, e ∈ handler.events := by
  induction d generalizing running event with
  | zero => simp [seen] at h
  | succ d ih =>
    rw [seen, List.mem_flatMap] at h
    obtain ⟨⟨handler, i⟩, hmem, he⟩ := h
    dsimp only at he
    split at he
    case isFalse => simp at he
    case isTrue hcond =>
      have hlistens : event ∈ handler.events := (by simpa using hcond : _ ∧ i ∉ running).1
      rcases List.mem_cons.1 he with rfl | he
      · exact ⟨handler, List.fst_mem_of_mem_zipIdx hmem, hlistens⟩
      -- what is left is fired by the handler itself
      · cases hnested : handler.nested with
        | none => simp [hnested] at he
        | some e' =>
          simp only [hnested] at he
          split at he
          · simp at he
          · exact ih he

/-- What is seen is listened to. -/
theorem mem_fire {e : String} (h : e ∈ b.fire event) : b.hasListener e = true := by
  obtain ⟨handler, hmem, he⟩ := mem_seen h
  exact List.any_eq_true.2 ⟨handler, hmem, List.contains_iff_mem.2 he⟩

/-- An event passes unseen exactly if nothing listens for it. -/
theorem fire_eq_nil_iff : b.fire event = [] ↔ b.hasListener event = false := by
  -- no handler is running yet, so there are as many idle ones as there are handlers
  have hbound : (idle b.handlers []).length ≤ b.handlers.length := by simp [idle]
  rw [fire, seen_eq hbound, List.flatMap_eq_nil_iff, hasListener, List.any_eq_false]
  constructor
  · intro h handler hmem
    obtain ⟨i, hi⟩ := List.mem_iff_getElem?.1 hmem
    have := h (handler, i) (List.mk_mem_zipIdx_iff_getElem?.2 hi)
    simpa using this
  · rintro h ⟨handler, i⟩ hmem
    have hdeaf : event ∉ handler.events := by
      simpa using h handler (List.fst_mem_of_mem_zipIdx hmem)
    simp [hdeaf]

/-! ## Binding -/

/-- The page listens to a media event as soon as a handler is bound that can be. -/
theorem hasListener_bind {nested : Option String} {e : MediaEvent} :
    (b.bind nested).hasListener e.name = true ↔
      b.hasListener e.name = true ∨ e.name ∉ b.refusals.listen := by
  -- a handler is bound to all the events of the media, as far as that is not refused
  have hall : e ∈ MediaEvent.all := by cases e <;> decide
  have hnames : e.name ∈ MediaEvent.all.map MediaEvent.name := List.mem_map_of_mem hall
  simp only [hasListener, bind, List.any_append, Bool.or_eq_true, List.any_cons, List.any_nil,
    Bool.or_false, List.contains_iff_mem, List.mem_filter, hnames, true_and]
  simp

/-- The first handler of a page sees each of its events once: what it fires in its turn passes
unseen, since it is running. -/
theorem fire_bind {nested : Option String} (h : b.handlers = []) :
    (b.bind nested).fire event = if (b.bind nested).hasListener event then [event] else [] := by
  cases nested with
  | none => simp [fire, bind, h, seen, hasListener]
  | some e => simp [fire, bind, h, seen, hasListener]

/-- Where no handler fires anything, an event is seen once by each handler that listens for it. -/
theorem fire_of_nested_eq_none (h : ∀ handler ∈ b.handlers, handler.nested = none) :
    b.fire event =
      (b.handlers.filter fun handler => handler.events.contains event).map fun _ => event := by
  have hbound : (idle b.handlers []).length ≤ b.handlers.length := by simp [idle]
  rw [fire, seen_eq hbound]
  calc _ = b.handlers.zipIdx.flatMap fun s =>
          if s.1.events.contains event then [event] else [] := by
        refine List.flatMap_congr fun ⟨handler, i⟩ hmem => ?_
        simp [h handler (List.fst_mem_of_mem_zipIdx hmem)]
    _ = b.handlers.flatMap fun handler =>
          if handler.events.contains event then [event] else [] := by
        -- without anything fired in turn the place of a handler does not matter
        conv_rhs => rw [← List.zipIdx_map_fst 0 b.handlers, List.flatMap_map]
    _ = _ := by
        rw [← List.filterMap_eq_map, List.filterMap_filter, List.filterMap_eq_flatMap_toList]
        refine List.flatMap_congr fun handler _ => ?_
        split <;> rfl

end LibraryPlayer.Browser
