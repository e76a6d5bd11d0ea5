import LibraryPlayer.Catalog.Track

/-! # Result sets

The tracks that one query found, in order.  Every set has a number of its own and an entry is known
by its set and its place in it: a track found again by a later query is another entry, even when
the two say the same.

* `following?_of_get?`: the entry after the one at an index is the one at the next index.
* `position?_eq_none`: an entry of another set is not in this one.
-/

namespace LibraryPlayer

/-- Which entry of which set. -/
structure EntryId where
  set : Nat
  index : Nat
  deriving DecidableEq, Repr

/-- A track in a result set. -/
structure Entry where
  id : EntryId
  track : Track
  deriving DecidableEq

namespace Entry

/-- Whether two entries are the same one. -/
def same (a b : Entry) : Bool := a.id == b.id

end Entry

/-- The tracks of one query. -/
structure ResultSet where
  number : Nat := 0
  tracks : List Track := []
  deriving DecidableEq

namespace ResultSet

/-- The entries of a set, in order. -/
def entries (s : ResultSet) : List Entry :=
  s.tracks.mapIdx fun i t => ⟨⟨s.number, i⟩, t⟩

/-- The entry at an index. -/
def get? (s : ResultSet) (index : Nat) : Option Entry :=
  s.tracks[index]?.map fun t => ⟨⟨s.number, index⟩, t⟩

/-- The index of an entry, if it is one of this set. -/
def position? (s : ResultSet) (e : Entry) : Option Nat := s.entries.findIdx? (·.same e)

/-- The entry after one of this set. -/
def following? (s : ResultSet) (e : Entry) : Option Entry :=
  (s.position? e).bind fun i => s.get? (i + 1)

/-- Whether two sets list tracks that say the same, in the same order. -/
def sameContent (s t : ResultSet) : Bool :=
  s.tracks.length == t.tracks.length &&
    (s.tracks.zip t.tracks).all fun p => p.1.sameContent p.2

/-! ## Where entries are found -/

/-- There is one entry for each track. -/
@[simp] theorem length_entries (s : ResultSet) : s.entries.length = s.tracks.length := by
  simp [entries]

/-- The entries are what the indices give. -/
theorem getElem?_entries (s : ResultSet) (i : Nat) : s.entries[i]? = s.get? i := by
  simp [entries, get?]

/-- There is an entry at each index below the length, and none beyond. -/
theorem get?_eq_dite (s : ResultSet) (i : Nat) :
    s.get? i = if h : i < s.tracks.length then some ⟨⟨s.number, i⟩, s.tracks[i]⟩ else none := by
  rw [get?]
  split
  next h => rw [List.getElem?_eq_getElem h, Option.map_some]
  next h => rw [List.getElem?_eq_none (Nat.le_of_not_lt h), Option.map_none]

/-- The entries have the tracks of the list, in order. -/
theorem map_track_entries (s : ResultSet) : s.entries.map Entry.track = s.tracks := by
  simp [entries, List.mapIdx_eq_zipIdx_map, List.map_map, Function.comp_def, List.zipIdx_map_fst]

/-- What is made of the track of each entry is made of each track of the list. -/
theorem map_entries {α : Type} (s : ResultSet) (f : Track → α) :
    s.entries.map (fun e => f e.track) = s.tracks.map f := by
  rw [← map_track_entries, List.map_map]
  rfl

/-- The entries of a stretch have the tracks of that stretch. -/
theorem map_track_take_drop (s : ResultSet) (i k : Nat) :
    ((s.entries.drop i).take k).map Entry.track = (s.tracks.drop i).take k := by
  rw [List.map_take, List.map_drop, map_track_entries]

/-- The entries from an index on, one more than asked for, begin with the one at the index. -/
theorem take_drop_entries (s : ResultSet) (i k : Nat) :
    (s.entries.drop i).take (k + 1) =
      (s.get? i).toList ++ (s.entries.drop (i + 1)).take k := by
  rw [← getElem?_entries]
  -- past the end both sides are empty
  cases h : s.entries[i]? with
  | none =>
    have hi : s.entries.length ≤ i := List.getElem?_eq_none_iff.1 h
    simp [List.drop_eq_nil_of_le hi, List.drop_eq_nil_of_le (Nat.le_succ_of_le hi)]
  | some e =>
    obtain ⟨hi, rfl⟩ := List.getElem?_eq_some_iff.1 h
    rw [List.drop_eq_getElem_cons hi, List.take_succ_cons]
    rfl

/-- An entry of the set is found at its own index. -/
theorem position?_of_get? {s : ResultSet} {i : Nat} {e : Entry} (h : s.get? i = some e) :
    s.position? e = some i := by
  obtain ⟨t, ht, rfl⟩ := Option.map_eq_some_iff.1 h
  obtain ⟨hi, -⟩ := List.getElem?_eq_some_iff.1 ht
  rw [position?, List.findIdx?_eq_some_iff_getElem]
  refine ⟨by simpa using hi, by simp [entries, Entry.same], fun j hj => ?_⟩
  -- an entry before it has another place, hence another identity
  have : j ≠ i := by omega
  simp [entries, Entry.same, this]

/-- The entry after the one at an index is at the next index. -/
theorem following?_of_get? {s : ResultSet} {i : Nat} {e : Entry} (h : s.get? i = some e) :
    s.following? e = s.get? (i + 1) := by
  simp [following?, position?_of_get? h]

/-- What follows the entry at an index is at the next index; past the end nothing does. -/
theorem bind_following?_get? (s : ResultSet) (i : Nat) :
    (s.get? i).bind s.following? = s.get? (i + 1) := by
  cases h : s.get? i with
  | some e => exact following?_of_get? h
  | none =>
    have hi : s.tracks.length ≤ i := by simpa [get?] using h
    have : s.tracks[i + 1]? = none := List.getElem?_eq_none (by omega)
    simp [get?, this]

/-- An entry of a set with another number is not found. -/
theorem position?_eq_none {s : ResultSet} {e : Entry} (h : e.id.set ≠ s.number) :
    s.position? e = none := by
  rw [position?, List.findIdx?_eq_none_iff]
  intro x hx
  obtain ⟨i, hi, rfl⟩ := List.mem_iff_getElem.1 hx
  have : (⟨s.number, i⟩ : EntryId) ≠ e.id := fun h' => h (by rw [← h'])
  simpa [entries, Entry.same] using this

end ResultSet

end LibraryPlayer
