import LibraryPlayer.Catalog.Client
import LibraryPlayer.Proofs.Catalog.Documents
import LibraryPlayer.Proofs.Json.CutReadings

/-!
# Whole replies

A reply that is cut off is not taken for a shorter one, and neither is one with something behind it:
both fail, so a query gets all tracks of a reply or none (`Client.query_takes_whole_replies`).  A
reply that is cut off outside its numerals fails because its octets end.
-/

namespace LibraryPlayer

open Json

/-! ## Tracks that are cut off -/

/-- The reader for a field misses the end of content that is cut off. -/
theorem Field.misses_read (f : Field) : Misses f.read f.ofTree? := by
  cases f
  case id => exact misses_natural64
  case title | artist | album => exact misses_text
  case albumId => exact misses_optional misses_natural64
  case position | total | disc | year | bitrate => exact misses_optional misses_natural32
  case length => exact misses_optional misses_double
  case genre | format | recordingId | lyrics | comments => exact misses_optional misses_text

namespace Draft

/-- Values of fields that are cut off are missed, field by field. -/
theorem readList_cut {fs : List Field} {d d' : Draft} {first : Bool} {s p q : Bytes}
    {ts : List Tree} (hs : Spells s (.items first ts)) (hts : ofItems? fs d ts = some d')
    (hsplit : s = p ++ q) (hq : q ≠ []) (hnum : ¬CutsNumeral p q (.items first ts)) :
    readList fs first d p = .error .ended := by
  -- on the fields that are still to come
  induction fs generalizing d first s p ts with
  | nil =>
    cases hs with
    | endItems hg =>
      obtain ⟨r, rfl⟩ := cut_concat hsplit hq
      rw [readList, endList_blank hg.of_append.1, error_bind]
    | item => cases hts
  | cons f fs ih =>
    rw [readList]
    cases hs with
    | endItems hg =>
      obtain ⟨r, rfl⟩ := cut_concat hsplit hq
      rw [next_blank hg.of_append.1, error_bind]
    | @item lead x y _ t ts hlead hx hy =>
      obtain ⟨content, hcontent, hts⟩ := Option.bind_eq_some_iff.1 hts
      -- the cut is in front of this value, inside it or behind it
      refine item_bind_cut (.inl rfl) hlead hx hsplit ?_ ?_
      · rintro r r' rfl hx' rfl hr'
        have hread : f.read r = .error .ended :=
          f.misses_read hx .nil hcontent hx' hr' fun u hu hcuts =>
            hnum (.item hlead (hu ▸ hcuts) hy)
        dsimp only
        rw [hread, error_bind]
      · rintro r rfl hy'
        have hread := f.reads_read.complete .nil hx hcontent (stops_of_items_cut hy hy')
        rw [List.nil_append] at hread
        dsimp only
        rw [hread, ok_bind]
        exact ih hy hts hy' fun hcuts => hnum (.laterItem hlead hx hcuts)

/-- So is the value of a field that is named by its key, or one that nobody wants. -/
theorem missesMember_readMember : MissesMember readMember enter? := by
  intro s g g' p q t d d' key hs hg hg' henter hsplit hq hnum
  rw [readMember]
  rw [enter?] at henter
  -- the value is passed over if the key names no field, and read if it does
  cases hkey : Field.ofKey? key with
  | none =>
    refine colon_bind_cut hg hsplit fun r hp hr => ?_
    rw [skip_cut hs hg' hr hq fun u hu => hnum u (by rw [hp, hu]), error_bind]
  | some f =>
    rw [hkey] at henter
    dsimp only at henter ⊢
    split at henter
    · cases henter
    next hnew =>
      obtain ⟨content, hcontent, -⟩ := Option.map_eq_some_iff.1 henter
      rw [if_neg hnew]
      refine colon_bind_cut hg hsplit fun r hp hr => ?_
      rw [f.misses_read hs hg' hcontent hr hq fun u hu => hnum u (by rw [hp, hu]), error_bind]

/-- The list form of a track is missed when it is cut off. -/
theorem missesRest_readList :
    MissesRest (.items true) (readList Field.all true empty) (ofItems? Field.all empty) :=
  fun _ _ _ _ _ hs hts hsplit hq hnum => readList_cut hs hts hsplit hq hnum

/-- So is the object form of a track. -/
theorem missesRest_readObject : MissesRest (.members true) readObject (ofMembers? empty) :=
  fun _ _ _ _ _ hs hms hsplit hq hnum =>
    members_cut readsMember_readMember missesMember_readMember hs hms hsplit hq hnum _

end Draft

/-- So is any track. -/
theorem Track.misses_read : Misses read ofTree? :=
  (misses_record Draft.missesRest_readList Draft.missesRest_readObject).bind _ fun _ => rfl

/-! ## Replies that are cut off or go on -/

namespace Reply

/-- The list form of a reply is missed when it is cut off. -/
theorem missesRest_readList : MissesRest (.items true) readList ofItems? := by
  intro s p q ts tracks hs hts hsplit hq hnum
  rw [readList]
  cases hs with
  | endItems hg =>
    obtain ⟨r, rfl⟩ := cut_concat hsplit hq
    rw [next_blank hg.of_append.1, error_bind]
  | @item lead x y _ t ts hlead hx hy =>
    cases ts with
    | cons => cases hts
    | nil =>
      refine item_bind_cut (.inl rfl) hlead hx hsplit ?_ ?_
      · rintro r r' rfl hx' rfl hr'
        have hread : list Track.read r = .error .ended :=
          misses_list Track.reads_read Track.misses_read hx .nil hts hx' hr' fun u hu hcuts =>
            hnum (.item hlead (hu ▸ hcuts) hy)
        dsimp only
        rw [hread, error_bind]
      · rintro r rfl hy'
        have hread := (reads_list Track.reads_read).complete .nil hx hts (stops_of_items_cut hy hy')
        rw [List.nil_append] at hread
        dsimp only
        rw [hread, ok_bind]
        -- behind the tracks only the closing bracket can be cut off
        cases hy with
        | endItems hg =>
          obtain ⟨r', rfl⟩ := cut_concat hy' hq
          dsimp only
          rw [endList_blank hg.of_append.1, error_bind]

/-- So is the member with the tracks, or one that nobody wants. -/
theorem missesMember_readMember : MissesMember readMember enter? := by
  intro s g g' p q t tracks tracks' key hs hg hg' henter hsplit hq hnum
  rw [readMember]
  rw [enter?] at henter
  split at henter
  next hkey =>
    split at henter
    · cases henter
    next hnew =>
      obtain ⟨ts, hts, -⟩ := Option.map_eq_some_iff.1 henter
      rw [if_pos hkey, if_neg hnew]
      refine colon_bind_cut hg hsplit fun r hp hr => ?_
      rw [misses_list Track.reads_read Track.misses_read hs hg' hts hr hq
        fun u hu => hnum u (by rw [hp, hu]), error_bind]
  next hkey =>
    rw [if_neg hkey]
    refine colon_bind_cut hg hsplit fun r hp hr => ?_
    rw [skip_cut hs hg' hr hq fun u hu => hnum u (by rw [hp, hu]), error_bind]

/-- So is the object form of a reply. -/
theorem missesRest_readObject : MissesRest (.members true) readObject ofMembers? := by
  intro s p q ms tracks hs hms hsplit hq hnum
  obtain ⟨tracks', hfold, -⟩ := Option.map_eq_some_iff.1 hms
  have hmembers :=
    members_cut readsMember_readMember missesMember_readMember hs hfold hsplit hq hnum
  rw [readObject, hmembers, error_bind]

/-- The octets of a reply up to its closing bracket, and the blanks after it. -/
theorem exists_of_ofJson {s : Bytes} {tracks : List Track} (h : ofJson s = .ok tracks) :
    ∃ g x g' t, IsBlank g ∧ IsBlank g' ∧ s = g ++ (x ++ g') ∧ Spells x (.value t) ∧
      ofTree? t = some tracks := by
  obtain ⟨t, ⟨g, x, g', hg, hg', hs, hx⟩, ht⟩ := ofJson_eq_ok.1 h
  exact ⟨g, x, g', t, hg, hg', hs, hx, ht⟩

/-- What follows a reply is judged by itself: only blanks may follow. -/
theorem ofJson_append {s : Bytes} {tracks : List Track} (h : ofJson s = .ok tracks) (s' : Bytes) :
    ofJson (s ++ s') = (finish s').map fun _ => tracks := by
  obtain ⟨g, x, g', t, hg, hg', rfl, hx, ht⟩ := exists_of_ofJson h
  -- the reply ends with its bracket whatever follows, and `finish` sees the rest
  rw [ofJson, whole, List.append_assoc, List.append_assoc,
    record_of_spells readsRest_readList readsRest_readObject hg hx ht, ok_bind]
  dsimp only
  rw [finish_append hg']
  cases finish s' <;> rfl

/-- Blanks may follow a reply. -/
theorem ofJson_append_blank {s s' : Bytes} {tracks : List Track} (h : ofJson s = .ok tracks)
    (hs' : IsBlank s') : ofJson (s ++ s') = .ok tracks := by
  rw [ofJson_append h, finish_of_blank hs']
  rfl

/-- Anything else behind a reply is a fault. -/
theorem ofJson_append_of_not_blank {s s' : Bytes} {tracks : List Track} (h : ofJson s = .ok tracks)
    (hs' : ¬IsBlank s') : ofJson (s ++ s') = .error .malformed := by
  rw [ofJson_append h, finish_of_not_blank hs']
  rfl

/-- The first part of a reply is no reply: what is cut off is not only blanks. -/
theorem exists_fault_of_cut {p q : Bytes} {tracks : List Track} (h : ofJson (p ++ q) = .ok tracks)
    (hlast : ∀ b ∈ (p ++ q).getLast?, isSpace b = false) (hq : q ≠ []) :
    ∃ fault, ofJson p = .error fault := by
  cases hp : ofJson p with
  | error fault => exact ⟨fault, rfl⟩
  | ok tracks' =>
    -- a reply in front of the cut could only be followed by blanks, and the text ends in none
    have hblank : ¬IsBlank q := fun hblank => hq (hblank.eq_nil_of_last hlast)
    rw [ofJson_append_of_not_blank hp hblank] at h
    exact nomatch h

/-- A reply that is cut off outside its numerals ends too early, and that is what is reported. -/
theorem ofJson_cut {p q : Bytes} {tracks : List Track} (h : ofJson (p ++ q) = .ok tracks)
    (hlast : ∀ b ∈ (p ++ q).getLast?, isSpace b = false) (hq : q ≠ [])
    (hnum : ¬CutsTextNumeral p q) : ofJson p = .error .ended := by
  obtain ⟨g, x, g', t, hg, hg', hs, hx, ht⟩ := exists_of_ofJson h
  rw [hs, ← List.append_assoc] at hlast
  -- so the text ends with the bracket of the reply, and the cut is in front of it
  obtain rfl := hg'.eq_nil_of_last hlast
  rw [List.append_nil] at hs
  have hread := misses_record missesRest_readList missesRest_readObject hx hg ht hs.symm hq
    fun r hp hcuts => hnum ⟨g, r, q, [], t, hg, .nil, hp, (List.append_nil q).symm, hcuts⟩
  rw [ofJson, whole, hread, error_bind]

end Reply

/-! ## Queries -/

namespace Client

/-- A body that cannot be read is a failed request. -/
theorem query_of_fault {c : Client} {query url : String} (hurl : c.queryUrl? query = some url)
    {status : Nat} (hstatus : Answer.isSuccess status = true) {body : Bytes} {fault : Fault}
    (hbody : Reply.ofJson body = .error fault) :
    c.query query (.reply status body) = ([url], .error .request) := by
  simp [Client.query, hurl, Answer.tracks, hstatus, hbody]

/-- A reply that is cut off, or has more than blanks behind it, is a failed request and never a
shorter list of tracks.  A cut outside the numerals of the reply is reported as such. -/
theorem query_takes_whole_replies {b : Bytes} {tracks : List Track}
    (h : Reply.ofJson b = .ok tracks) (hlast : ∀ c ∈ b.getLast?, isSpace c = false) :
    (∀ p q, b = p ++ q → q ≠ [] →
      (∃ fault, Reply.ofJson p = .error fault ∧ (¬CutsTextNumeral p q → fault = .ended)) ∧
      ∀ (c : Client) (query url : String) (status : Nat), c.queryUrl? query = some url →
        Answer.isSuccess status = true →
        c.query query (.reply status p) = ([url], .error .request)) ∧
    (∀ s, IsBlank s → Reply.ofJson (b ++ s) = .ok tracks) ∧
    ∀ s, ¬IsBlank s → Reply.ofJson (b ++ s) = .error .malformed ∧
      ∀ (c : Client) (query url : String) (status : Nat), c.queryUrl? query = some url →
        Answer.isSuccess status = true →
        c.query query (.reply status (b ++ s)) = ([url], .error .request) := by
  refine ⟨?_, fun s => Reply.ofJson_append_blank h, fun s hs => ?_⟩
  -- a reply that is cut off
  · rintro p q rfl hq
    obtain ⟨fault, hfault⟩ := Reply.exists_fault_of_cut h hlast hq
    refine ⟨⟨fault, hfault, fun hnum => ?_⟩, fun c query url status hurl hstatus =>
      query_of_fault hurl hstatus hfault⟩
    rw [Reply.ofJson_cut h hlast hq hnum] at hfault
    exact (Except.error.inj hfault).symm
  -- a reply with something behind it
  · have hfault := Reply.ofJson_append_of_not_blank h hs
    exact ⟨hfault, fun c query url status hurl hstatus => query_of_fault hurl hstatus hfault⟩

/-- One track: with its object left open, cut inside its number, and with an octet behind it. -/
theorem query_takes_whole_replies_of_one_track :
    Reply.ofJson (Text.octets "[[\x7b\"id\":12") = .error .ended ∧
    query ⟨"/"⟩ "a" (.reply 200 (Text.octets "[[\x7b\"id\":1")) =
      (["/item/query/a"], .error .request) ∧
    Reply.ofJson (Text.octets "[[\x7b\"id\":12\x7d]]0") = .error .malformed := by
  have h : Reply.ofJson (Text.octets "[[\x7b\"id\":12\x7d]]") = .ok [{ id := 12 }] := by
    decide +kernel
  obtain ⟨hcut, -, hmore⟩ := query_takes_whole_replies h (by decide +kernel)
  obtain ⟨⟨fault, hfault, hended⟩, -⟩ :=
    hcut (Text.octets "[[\x7b\"id\":12") (Text.octets "\x7d]]") (by decide +kernel)
      (by decide +kernel)
  -- the octet behind the cut is a brace, which no numeral has
  have hnum : ¬CutsTextNumeral (Text.octets "[[\x7b\"id\":12") (Text.octets "\x7d]]") := by
    rintro ⟨g, p, q, g', t, -, -, -, hq, hcuts⟩
    obtain ⟨u, b, c, v, -, rfl, -, hc⟩ := hcuts.sides
    obtain rfl : closeObject = c := (List.cons.inj hq).1
    exact absurd hc (by decide)
  obtain ⟨-, hquery⟩ := hcut (Text.octets "[[\x7b\"id\":1") (Text.octets "2\x7d]]")
    (by decide +kernel) (by decide +kernel)
  obtain ⟨hbehind, -⟩ := hmore (Text.octets "0") fun hblank =>
    absurd (hblank 0x30 (by decide)) (by decide)
  have hurl : queryUrl? ⟨"/"⟩ "a" = some "/item/query/a" := by decide +kernel
  have happend : Text.octets "[[\x7b\"id\":12\x7d]]" ++ Text.octets "0" =
      Text.octets "[[\x7b\"id\":12\x7d]]0" := by decide +kernel
  rw [happend] at hbehind
  exact ⟨by rw [hfault, hended hnum], hquery ⟨"/"⟩ "a" "/item/query/a" 200 hurl rfl, hbehind⟩

end Client

end LibraryPlayer
