import LibraryPlayer.Browser.Publishing
import Mathlib.Tactic.SplitIfs

/-!
# What becomes of an attempt to publish

An attempt ends at the first thing that the browser refuses, and what the session shows is only
written when nothing was refused on the way.

* `publishOutcome_eq_ok_iff`: what a browser has to allow for an attempt to succeed (`Allows`).
* `publishOutcome_eq_unavailable_iff`: the session counts as missing only where there is none.
* `publish_refused` and `publish_accepted`: a refused attempt leaves the browser as it is, and any
  other one adds one entry to what has been published.
-/

namespace LibraryPlayer.Browser

variable {b : Browser} {n : NowPlaying}

/-- The browser has a session that takes updates, and lets all properties be read and written that
are needed to tell it something. -/
structure Allows (b : Browser) (n : NowPlaying) : Prop where
  window : b.hasWindow = true
  session : b.sessionProperty = .object
  metadata : b.metadataProperty = .constructor
  readable : "mediaSession" ∉ b.refusals.get ∧ "MediaMetadata" ∉ b.refusals.get
  writable : ∀ name ∈ "metadata" :: propertiesOf n, name ∉ b.refusals.set

/-! ## Attempts in steps -/

/-- An attempt in two steps succeeds if both do. -/
theorem bind_eq_ok_iff {first second : Outcome} :
    (do first; second) = .ok () ↔ first = .ok () ∧ second = .ok () := by
  cases first with
  | error f => simp [Bind.bind, Except.bind]
  | ok u => simp [Bind.bind, Except.bind]

/-- An attempt in two steps fails as the first of them does, or else as the second. -/
theorem bind_eq_error_iff {first second : Outcome} {f : PlaybackFailure} :
    (do first; second) = .error f ↔ first = .error f ∨ first = .ok () ∧ second = .error f := by
  cases first with
  | error f => simp [Bind.bind, Except.bind]
  | ok u => simp [Bind.bind, Except.bind]

/-- A property can be written unless the browser refuses just that. -/
theorem setProperty_eq_ok_iff {name : String} :
    b.setProperty name = .ok () ↔ name ∉ b.refusals.set := by
  rw [setProperty]
  split <;> simp_all

/-- Properties are written one after the other, up to the first that is refused. -/
theorem forM_setProperty_eq_ok_iff {names : List String} :
    names.forM b.setProperty = .ok () ↔ ∀ name ∈ names, name ∉ b.refusals.set := by
  induction names with
  | nil => simp [List.forM, Pure.pure, Except.pure]
  | cons name names ih =>
    rw [List.forM, bind_eq_ok_iff, setProperty_eq_ok_iff, ih, List.forall_mem_cons]

/-- A session can be published to if it is there and can be read. -/
theorem checkSession_eq_ok_iff : b.checkSession = .ok () ↔
    b.hasWindow = true ∧ "mediaSession" ∉ b.refusals.get ∧ b.sessionProperty = .object := by
  simp only [checkSession]
  split_ifs <;> simp_all

/-- A constructor of metadata is there if it can be read and is not missing. -/
theorem checkConstructor_eq_ok_iff : b.checkConstructor = .ok () ↔
    "MediaMetadata" ∉ b.refusals.get ∧ b.metadataProperty ≠ .missing := by
  simp [checkConstructor, ← not_or]

/-- Metadata is constructed unless the constructor throws. -/
theorem construct_eq_ok_iff : b.construct = .ok () ↔ b.metadataProperty ≠ .throwing := by
  simp only [construct]
  split_ifs <;> simp_all

/-! ## How an attempt comes out -/

/-- An attempt succeeds exactly if the browser allows all of it. -/
theorem publishOutcome_eq_ok_iff : b.publishOutcome n = .ok () ↔ b.Allows n := by
  simp only [publishOutcome, bind_eq_ok_iff, checkSession_eq_ok_iff, checkConstructor_eq_ok_iff,
    forM_setProperty_eq_ok_iff, construct_eq_ok_iff, setProperty_eq_ok_iff]
  constructor
  · rintro ⟨⟨hwindow, hsession, hobject⟩, ⟨hmetadata, hmissing⟩, hwritable, hthrowing, hset⟩
    refine ⟨hwindow, hobject, ?_, ⟨hsession, hmetadata⟩, List.forall_mem_cons.2 ⟨hset, hwritable⟩⟩
    -- of the three states of the property two are excluded
    cases h : b.metadataProperty with
    | missing => exact absurd h hmissing
    | throwing => exact absurd h hthrowing
    | constructor => rfl
  · rintro ⟨hwindow, hobject, hconstructor, ⟨hsession, hmetadata⟩, hwritable⟩
    obtain ⟨hset, hwritable⟩ := List.forall_mem_cons.1 hwritable
    exact ⟨⟨hwindow, hsession, hobject⟩, ⟨hmetadata, by simp [hconstructor]⟩, hwritable,
      by simp [hconstructor], hset⟩

/-- What fails when properties are written is the session. -/
theorem forM_setProperty_ne_unavailable (names : List String) :
    names.forM b.setProperty ≠ .error .unavailable := by
  induction names with
  | nil => exact nofun
  | cons name names ih =>
    rw [List.forM, Ne, bind_eq_error_iff, not_or, not_and]
    -- a refusal to write is a failure of a session that is there
    refine ⟨?_, fun _ => ih⟩
    rw [setProperty, sessionFailure]
    split <;> simp

/-- The session is reported missing exactly where there is no window, or no session object can be
found in it; all other failures are of a session. -/
theorem publishOutcome_eq_unavailable_iff : b.publishOutcome n = .error .unavailable ↔
    b.hasWindow = false ∨ "mediaSession" ∉ b.refusals.get ∧ b.sessionProperty ≠ .object := by
  -- only the check of the session itself can report it missing
  have hconstructor : b.checkConstructor ≠ .error .unavailable := by
    rw [checkConstructor]
    split <;> simp
  have hconstruct : b.construct ≠ .error .unavailable := by
    rw [construct, sessionFailure]
    split <;> simp
  have hset : b.setProperty "metadata" ≠ .error .unavailable := by
    rw [setProperty, sessionFailure]
    split <;> simp
  simp only [publishOutcome, bind_eq_error_iff, hconstructor, hconstruct, hset,
    forM_setProperty_ne_unavailable, and_false, or_false]
  simp only [checkSession, sessionFailure]
  split_ifs <;> simp_all

/-! ## What is left of it -/

/-- A refused attempt leaves the browser as it is, so what is published stays. -/
theorem publish_refused {f : PlaybackFailure} (h : (b.publish n).1 = .error f) :
    b.publish n = (.error f, b) := by
  -- the outcome is found out first, and only then something is written
  cases houtcome : b.publishOutcome n with
  | ok u => simp [publish, houtcome] at h
  | error f' =>
    obtain rfl : f' = f := by simpa [publish, houtcome] using h
    simp [publish, houtcome]

/-- An attempt that is not refused adds one entry at the end, and changes nothing else. -/
theorem publish_accepted (h : (b.publish n).1 = .ok ()) :
    b.publish n = (.ok (), { b with published := b.published ++ [n] }) := by
  cases houtcome : b.publishOutcome n with
  | ok u => simp [publish, houtcome]
  | error f => simp [publish, houtcome] at h

/-- An attempt is accepted exactly if the browser allows all of it. -/
theorem publish_eq_ok_iff : (b.publish n).1 = .ok () ↔ b.Allows n := by
  rw [← publishOutcome_eq_ok_iff]
  cases houtcome : b.publishOutcome n with
  | ok u => simp [publish, houtcome]
  | error f => simp [publish, houtcome]

end LibraryPlayer.Browser
