import LibraryPlayer.Catalog.Reply
import LibraryPlayer.Proofs.Json.Readings

/-!
# Replies as trees

What a reply lists is told by its tree: `Reply.ofTree?` looks at the fields that are there, each by
its key or its place, and at nothing else.  The reader takes exactly the octets whose tree lists
tracks, and gives these (`Reply.ofJson_eq_ok`), so it depends on the tree only.
-/

namespace LibraryPlayer

open Json

namespace Field

/-- The content of a field that a value gives. -/
def ofTree? : (f : Field) → Tree → Option f.Content
  | id => Tree.natural64?
  | title | artist | album => Tree.text?
  | albumId => Tree.optional? Tree.natural64?
  | position | total | disc | year | bitrate => Tree.optional? Tree.natural32?
  | length => Tree.optional? Tree.double?
  | genre | format | recordingId | lyrics | comments => Tree.optional? Tree.text?

/-- The reader for a field takes exactly what gives it content. -/
theorem reads_read (f : Field) : Reads f.read f.ofTree? := by
  cases f
  case id => exact reads_natural64
  case title | artist | album => exact reads_text
  case albumId => exact reads_optional reads_natural64
  case position | total | disc | year | bitrate => exact reads_optional reads_natural32
  case length => exact reads_optional reads_double
  case genre | format | recordingId | lyrics | comments => exact reads_optional reads_text

end Field

namespace Draft

/-- Notes the fields that values give in their order; there may be fewer values than fields, but not
more. -/
def ofItems? : List Field → Draft → List Tree → Option Draft
  | _, d, [] => some d
  | [], _, _ :: _ => none
  | f :: fs, d, t :: ts => (f.ofTree? t).bind fun content => ofItems? fs (d.set f content) ts

/-- Notes the field with a key, unless it is there already.  Other keys are of no matter. -/
def enter? (d : Draft) (key : String) (t : Tree) : Option Draft :=
  match Field.ofKey? key with
  | none => some d
  | some f => if (d f).isSome then none else (f.ofTree? t).map (d.set f)

/-- Notes the fields that the members of an object give. -/
def ofMembers? : Draft → List (Option String × Tree) → Option Draft := Tree.foldMembers? enter?

/-- What spells the values of fields in their order is read as a draft of them. -/
theorem readList_of_spells {fs : List Field} {d d' : Draft} {first : Bool} {x : Bytes}
    {ts : List Tree} (hx : Spells x (.items first ts)) (hts : ofItems? fs d ts = some d')
    (rest : Bytes) : readList fs first d (x ++ rest) = .ok (d', rest) := by
  -- on the fields that are still to come
  induction fs generalizing d first x ts with
  | nil =>
    cases hx with
    | endItems hg =>
      obtain rfl : d = d' := Option.some.inj hts
      rw [readList, List.append_assoc, List.singleton_append, endList_of_blank hg]
      rfl
    -- with no field left a value is one too many
    | item => exact nomatch hts
  | cons f fs ih =>
    cases hx with
    | endItems hg =>
      obtain rfl : d = d' := Option.some.inj hts
      rw [readList, List.append_assoc, List.singleton_append, next_close (.inl rfl) hg]
      rfl
    | @item lead y z _ t ts hlead hy hz =>
      obtain ⟨content, hcontent, hts⟩ := Option.bind_eq_some_iff.1 hts
      have hread := f.reads_read.complete .nil hy hcontent (stops_of_items hz rest)
      rw [List.nil_append] at hread
      rw [readList, List.append_assoc, List.append_assoc, next_value hy (.inl rfl) hlead, ok_bind]
      dsimp only
      rw [hread, ok_bind]
      exact ih hz hts

/-- What has been read as such a list spells values of fields in their order. -/
theorem spells_of_readList {fs : List Field} {d d' : Draft} {first : Bool} {s rest : Bytes}
    (h : readList fs first d s = .ok (d', rest)) :
    ∃ x ts, s = x ++ rest ∧ Spells x (.items first ts) ∧ ofItems? fs d ts = some d' := by
  -- as the reader goes on, field by field
  induction fs generalizing d first s with
  | nil =>
    obtain ⟨r, hr, h⟩ := bind_eq_ok.1 h
    cases h
    obtain ⟨g, hg, rfl⟩ := eq_of_endList hr
    exact ⟨_, [], by simp, .endItems hg, rfl⟩
  | cons f fs ih =>
    rw [readList] at h
    obtain ⟨next, hnext, h⟩ := bind_eq_ok.1 h
    cases next with
    | close t =>
      cases h
      obtain ⟨g, hg, rfl⟩ := eq_of_next_close hnext
      exact ⟨_, [], by simp, .endItems hg, rfl⟩
    | item t =>
      obtain ⟨⟨content, r⟩, hread, h₁⟩ := bind_eq_ok.1 h
      obtain ⟨lead, -, -, hlead, rfl, -⟩ := eq_of_next_item hnext
      obtain ⟨g, x, t, hg, rfl, hx, ht⟩ := f.reads_read.sound hread
      obtain ⟨y, ts, rfl, hy, hts⟩ := ih h₁
      exact ⟨_, t :: ts, by simp, .item (hlead.append_blank hg) hx hy,
        by rw [ofItems?, ht, Option.bind_some, hts]⟩

/-- The reader for members takes the value of a field by its key, and passes over all others. -/
theorem readsMember_readMember : ReadsMember readMember enter? where
  complete {g g' x rest t d d' key} hg hg' hx henter hrest := by
    rw [readMember]
    rw [enter?] at henter
    cases hkey : Field.ofKey? key with
    | none =>
      rw [hkey] at henter
      obtain rfl : d = d' := Option.some.inj henter
      dsimp only
      rw [colon_of_blank hg, ok_bind, skip_of_spells hx hg' hrest]
      rfl
    | some f =>
      rw [hkey] at henter
      dsimp only at henter ⊢
      split at henter
      · exact nomatch henter
      -- the field is wanted unless it has been noted, which reader and tree judge alike
      next hnew =>
        obtain ⟨content, hcontent, rfl⟩ := Option.map_eq_some_iff.1 henter
        rw [if_neg hnew, colon_of_blank hg, ok_bind,
          f.reads_read.complete hg' hx hcontent hrest]
        rfl
  sound {s rest d d' key} h := by
    rw [readMember] at h
    unfold enter?
    cases hkey : Field.ofKey? key with
    | none =>
      rw [hkey] at h
      obtain ⟨r, hcolon, h⟩ := bind_eq_ok.1 h
      obtain ⟨r', hskip, h⟩ := bind_eq_ok.1 h
      cases h
      obtain ⟨g, hg, rfl⟩ := eq_of_colon hcolon
      -- what is passed over is some value
      obtain ⟨g', x, t, hg', rfl, hx⟩ := spells_of_skip hskip
      exact ⟨g, g', x, t, hg, hg', rfl, hx, rfl⟩
    | some f =>
      rw [hkey] at h
      dsimp only at h ⊢
      split at h
      · exact nomatch h
      next hnew =>
        obtain ⟨r, hcolon, h⟩ := bind_eq_ok.1 h
        obtain ⟨⟨content, r'⟩, hread, h⟩ := bind_eq_ok.1 h
        cases h
        obtain ⟨g, hg, rfl⟩ := eq_of_colon hcolon
        obtain ⟨g', x, t, hg', rfl, hx, ht⟩ := f.reads_read.sound hread
        exact ⟨g, g', x, t, hg, hg', rfl, hx, by rw [if_neg hnew, ht]; rfl⟩

/-- So the list form of a track is read as its values say. -/
theorem readsRest_readList :
    ReadsRest (.items true) (readList Field.all true empty) (ofItems? Field.all empty) where
  complete hx hts := readList_of_spells hx hts _
  sound := spells_of_readList

/-- The object form of a track is read as its members say. -/
theorem readsRest_readObject : ReadsRest (.members true) readObject (ofMembers? empty) where
  complete {x rest ms d} hx hms :=
    members_of_spells readsMember_readMember hx hms (by simp; omega) rest
  sound := spells_of_members readsMember_readMember

end Draft

namespace Track

/-- The track that a value gives. -/
def ofTree? (t : Tree) : Option Track :=
  (t.record? (Draft.ofItems? Field.all Draft.empty)
    (Draft.ofMembers? Draft.empty)).bind Draft.track?

/-- The reader for tracks takes exactly what gives one. -/
theorem reads_read : Reads read ofTree? := by
  refine (reads_record Draft.readsRest_readList Draft.readsRest_readObject).bind Draft.track?
    .mismatched fun s => ?_
  rw [read]
  congr 1
  funext ⟨d, r⟩
  cases hd : d.track? <;> simp [hd] <;> rfl

end Track

namespace Reply

/-- The tracks that the values of a list give, of which there is at most one. -/
def ofItems? : List Tree → Option (List Track)
  | [] => some []
  | [t] => t.list? Track.ofTree?
  | _ => none

/-- Notes the tracks, unless they are there already. -/
def enter? (tracks : Option (List Track)) (key : String) (t : Tree) :
    Option (Option (List Track)) :=
  if key = resultsKey then
    if tracks.isSome then none else (t.list? Track.ofTree?).map some
  else some tracks

/-- The tracks that the members of an object give. -/
def ofMembers? (ms : List (Option String × Tree)) : Option (List Track) :=
  (Tree.foldMembers? enter? none ms).map (·.getD [])

/-- The tracks that a reply lists. -/
def ofTree? : Tree → Option (List Track) := Tree.record? ofItems? ofMembers?

/-- The list form of a reply holds one list of tracks at most. -/
theorem readsRest_readList : ReadsRest (.items true) readList ofItems? where
  complete {x rest ts tracks} hx hts := by
    cases hx with
    | endItems hg =>
      obtain rfl : [] = tracks := Option.some.inj hts
      rw [readList, List.append_assoc, List.singleton_append, next_close (.inl rfl) hg]
      rfl
    | @item lead y z _ t ts hlead hy hz =>
      -- a second item is one too many for the tree and for the reader
      cases ts with
      | cons => exact nomatch hts
      | nil =>
        have hread := (reads_list Track.reads_read).complete .nil hy hts (stops_of_items hz rest)
        rw [List.nil_append] at hread
        rw [readList, List.append_assoc, List.append_assoc, next_value hy (.inl rfl) hlead, ok_bind]
        dsimp only
        rw [hread, ok_bind]
        cases hz with
        | endItems hg =>
          dsimp only
          rw [List.append_assoc, List.singleton_append, endList_of_blank hg]
          rfl
  sound {s rest tracks} h := by
    obtain ⟨next, hnext, h⟩ := bind_eq_ok.1 h
    cases next with
    | close t =>
      cases h
      obtain ⟨g, hg, rfl⟩ := eq_of_next_close hnext
      exact ⟨_, [], by simp, .endItems hg, rfl⟩
    | item t =>
      obtain ⟨⟨tracks', r⟩, hread, h⟩ := bind_eq_ok.1 h
      obtain ⟨r', hend, h⟩ := bind_eq_ok.1 h
      cases h
      obtain ⟨lead, -, -, hlead, rfl, -⟩ := eq_of_next_item hnext
      obtain ⟨g, x, t, hg, rfl, hx, ht⟩ := (reads_list Track.reads_read).sound hread
      obtain ⟨g', hg', rfl⟩ := eq_of_endList hend
      exact ⟨_, [t], by simp, .item (hlead.append_blank hg) hx (.endItems hg'), ht⟩

/-- The reader for members takes the tracks by their key, and passes over all others. -/
theorem readsMember_readMember : ReadsMember readMember enter? where
  complete {g g' x rest t tracks tracks' key} hg hg' hx henter hrest := by
    rw [readMember]
    rw [enter?] at henter
    split at henter
    next hkey =>
      split at henter
      · exact nomatch henter
      -- the tracks are wanted unless they have been noted
      next hnew =>
        obtain ⟨ts, hts, rfl⟩ := Option.map_eq_some_iff.1 henter
        rw [if_pos hkey, if_neg hnew, colon_of_blank hg, ok_bind,
          (reads_list Track.reads_read).complete hg' hx hts hrest]
        rfl
    next hkey =>
      obtain rfl : tracks = tracks' := Option.some.inj henter
      rw [if_neg hkey, colon_of_blank hg, ok_bind, skip_of_spells hx hg' hrest]
      rfl
  sound {s rest tracks tracks' key} h := by
    rw [readMember] at h
    unfold enter?
    split at h
    next hkey =>
      split at h
      · exact nomatch h
      next hnew =>
        obtain ⟨r, hcolon, h⟩ := bind_eq_ok.1 h
        obtain ⟨⟨ts, r'⟩, hread, h⟩ := bind_eq_ok.1 h
        cases h
        obtain ⟨g, hg, rfl⟩ := eq_of_colon hcolon
        obtain ⟨g', x, t, hg', rfl, hx, ht⟩ := (reads_list Track.reads_read).sound hread
        exact ⟨g, g', x, t, hg, hg', rfl, hx, by rw [if_pos hkey, if_neg hnew, ht]; rfl⟩
    next hkey =>
      obtain ⟨r, hcolon, h⟩ := bind_eq_ok.1 h
      obtain ⟨r', hskip, h⟩ := bind_eq_ok.1 h
      cases h
      obtain ⟨g, hg, rfl⟩ := eq_of_colon hcolon
      obtain ⟨g', x, t, hg', rfl, hx⟩ := spells_of_skip hskip
      exact ⟨g, g', x, t, hg, hg', rfl, hx, by rw [if_neg hkey]⟩

/-- So the object form of a reply is read as its members say. -/
theorem readsRest_readObject : ReadsRest (.members true) readObject ofMembers? where
  complete {x rest ms tracks} hx hms := by
    obtain ⟨tracks', hfold, rfl⟩ := Option.map_eq_some_iff.1 hms
    rw [readObject, members_of_spells readsMember_readMember hx hfold (by simp; omega) rest,
      ok_bind]
    rfl
  sound {s rest tracks} h := by
    obtain ⟨⟨tracks', r⟩, hmembers, h⟩ := bind_eq_ok.1 h
    cases h
    obtain ⟨x, ms, hs, hx, hms⟩ := spells_of_members readsMember_readMember hmembers
    exact ⟨x, ms, hs, hx, by rw [ofMembers?, hms]; rfl⟩

/-- A reply is read exactly when its tree lists tracks, and these are what it gives. -/
theorem ofJson_eq_ok {s : Bytes} {tracks : List Track} :
    ofJson s = .ok tracks ↔ ∃ t, Says s t ∧ ofTree? t = some tracks :=
  whole_eq_ok (reads_record readsRest_readList readsRest_readObject)

/-- What a text that says a tree is read as. -/
theorem ofJson_of_tree {s : Bytes} {t : Tree} (h : Says s t) {tracks : List Track} :
    ofJson s = .ok tracks ↔ ofTree? t = some tracks := by
  rw [ofJson_eq_ok]
  constructor
  -- a text says one tree only
  · rintro ⟨t', h', ht'⟩
    rwa [h.unique h']
  · exact fun ht => ⟨t, h, ht⟩

end Reply

end LibraryPlayer
