import LibraryPlayer.Proofs.Catalog.Documents
import Mathlib.Logic.Relation

/-!
# Ways to write a reply

The tracks of a reply depend on the fields said and not on how they are written.  Blanks and the
spelling of texts are not in the tree of a reply at all.  What can still differ is the order of
members, members that name no field, fields with their blank value, and whether a record is a list
or an object: these are the rewritings `Track.Rewrite` and `Reply.Rewrite` of trees.

* `Reply.rewriting_keeps_tracks`: after any number of rewritings a reply lists the same tracks.
-/

namespace LibraryPlayer

open Json

/-! ## Members in any order -/

/-- Members can be folded in any order, if any two of them can be swapped. -/
theorem Json.Tree.foldMembers?_perm {σ : Type} {enter : σ → String → Tree → Option σ}
    (hcomm : ∀ state key t key' t', (enter state key t).bind (enter · key' t') =
      (enter state key' t').bind (enter · key t))
    {ms ms' : List (Option String × Tree)} (h : ms.Perm ms') (state : σ) :
    foldMembers? enter state ms = foldMembers? enter state ms' := by
  induction h generalizing state with
  | nil => rfl
  | cons m _ ih =>
    obtain ⟨_ | key, t⟩ := m
    · rfl
    · simp only [foldMembers?, ih]
  | swap m m' ms =>
    -- a key that is no text ends the fold, wherever it stands
    obtain ⟨_ | key, t⟩ := m <;> obtain ⟨_ | key', t'⟩ := m'
    · rfl
    · simp [foldMembers?]
    · simp [foldMembers?]
    · have h := congrArg (Option.bind · (foldMembers? enter · ms)) (hcomm state key' t' key t)
      simpa only [foldMembers?, Option.bind_assoc] using h
  | trans _ _ ih ih' => rw [ih, ih']

/-! ## Fields -/

namespace Field

/-- The list of fields has all of them. -/
theorem mem_all (f : Field) : f ∈ all := by
  cases f <;> decide

/-- It has none twice. -/
theorem nodup_all : all.Nodup := by
  decide

/-- Every field is found by its key. -/
theorem ofKey?_key (f : Field) : ofKey? f.key = some f := by
  cases f <;> decide

/-- No field is found by any other key. -/
theorem ofKey?_of_unknown {key : String} (h : ∀ f : Field, f.key ≠ key) : ofKey? key = none :=
  List.find?_eq_none.2 fun f _ => by simpa using h f

/-- No two fields share a key. -/
theorem key_injective {f g : Field} (h : f.key = g.key) : f = g :=
  Option.some.inj (by rw [← ofKey?_key, h, ofKey?_key])

/-- The value that says as much as none, for a field that need not be there. -/
def blank? : Field → Option Tree
  | id => none
  | title | artist | album => some (.text (some ""))
  | _ => some .null

/-- A field can hold its blank value. -/
theorem exists_ofTree?_blank {f : Field} {t : Tree} (h : f.blank? = some t) :
    ∃ c, f.ofTree? t = some c := by
  cases f <;> simp only [blank?, Option.some.injEq, reduceCtorEq] at h <;> subst h <;>
    exact ⟨_, rfl⟩

end Field

namespace Draft

/-- A field that is set holds what it is set to. -/
@[simp] theorem set_self (d : Draft) (f : Field) (c : f.Content) : d.set f c f = some c := by
  simp [set]

/-- Setting a field leaves the others alone. -/
theorem set_of_ne (d : Draft) {f g : Field} (h : f ≠ g) (c : f.Content) : d.set f c g = d g := by
  simp [set, h]

/-- Two fields can be set in either order. -/
theorem set_comm (d : Draft) {f g : Field} (h : f ≠ g) (c : f.Content) (c' : g.Content) :
    (d.set f c).set g c' = (d.set g c').set f c := by
  -- by the field that is looked at: one of the two, or a third
  funext k
  by_cases hf : f = k
  · subst hf
    rw [set_of_ne _ h.symm, set_self, set_self]
  · by_cases hg : g = k
    · subst hg
      rw [set_self, set_of_ne _ h, set_self]
    · rw [set_of_ne _ hg, set_of_ne _ hf, set_of_ne _ hf, set_of_ne _ hg]

/-- A member that names no field leaves the draft alone. -/
theorem enter?_of_unknown {key : String} (h : ∀ f : Field, f.key ≠ key) (d : Draft) (t : Tree) :
    d.enter? key t = some d := by
  simp [enter?, Field.ofKey?_of_unknown h]

/-- A member that names a field sets it, unless it has been set. -/
theorem enter?_key (d : Draft) (f : Field) (t : Tree) :
    d.enter? f.key t = if (d f).isSome then none else (f.ofTree? t).map (d.set f) := by
  simp [enter?, f.ofKey?_key]

/-- Either a key names no field, or it is the key of one. -/
theorem key_cases (key : String) : (∀ f : Field, f.key ≠ key) ∨ ∃ f : Field, key = f.key := by
  by_cases h : ∃ f : Field, key = f.key
  · exact .inr h
  · exact .inl fun f hf => h ⟨f, hf.symm⟩

/-- All that a member can do to a draft: nothing, or note a field that was not there. -/
theorem enter?_cases {d d' : Draft} {key : String} {t : Tree} (h : d.enter? key t = some d') :
    ((∀ f : Field, f.key ≠ key) ∧ d' = d) ∨
    ∃ (f : Field) (c : f.Content), key = f.key ∧ d f = none ∧ f.ofTree? t = some c ∧
      d' = d.set f c := by
  obtain hkey | ⟨f, rfl⟩ := key_cases key
  · rw [enter?_of_unknown hkey] at h
    exact .inl ⟨hkey, (Option.some.inj h).symm⟩
  · rw [enter?_key] at h
    split at h
    · exact nomatch h
    -- the field was not there, or this would have failed
    next hnew =>
      obtain ⟨c, hc, rfl⟩ := Option.map_eq_some_iff.1 h
      exact .inr ⟨f, c, rfl, by simpa using hnew, hc, rfl⟩

/-- Two members can be entered in either order. -/
theorem enter?_comm (d : Draft) (key : String) (t : Tree) (key' : String) (t' : Tree) :
    (d.enter? key t).bind (enter? · key' t') = (d.enter? key' t').bind (enter? · key t) := by
  obtain hkey | ⟨f, rfl⟩ := key_cases key
  · simp [enter?_of_unknown hkey]
  obtain hkey' | ⟨g, rfl⟩ := key_cases key'
  · simp [enter?_of_unknown hkey']
  by_cases hfg : f = g
  · -- the second of the two fails, whichever it is
    subst hfg
    -- two different fields: each of the two can fail by itself, else both are set
    rw [enter?_key, enter?_key]
    by_cases hd : (d f).isSome
    · simp [hd]
    · cases f.ofTree? t <;> cases f.ofTree? t' <;> simp [hd, enter?_key]
  · rw [enter?_key, enter?_key]
    cases hf : f.ofTree? t <;> cases hg : g.ofTree? t' <;> by_cases hdf : (d f).isSome <;>
      by_cases hdg : (d g).isSome <;>
      simp [hf, hg, hdf, hdg, enter?_key, set_of_ne _ hfg, set_of_ne _ (Ne.symm hfg),
        set_comm d hfg]

/-- So the order of members is of no matter. -/
theorem ofMembers?_perm {ms ms' : List (Option String × Tree)} (h : ms.Perm ms') (d : Draft) :
    ofMembers? d ms = ofMembers? d ms' :=
  Tree.foldMembers?_perm enter?_comm h d

/-- Members are entered one after the other. -/
theorem ofMembers?_cons (d : Draft) (key : String) (t : Tree) (ms : List (Option String × Tree)) :
    ofMembers? d ((some key, t) :: ms) = (d.enter? key t).bind (ofMembers? · ms) := rfl

/-- A member that names no field is of no matter, wherever it stands. -/
theorem ofMembers?_insert {key : String} (h : ∀ f : Field, f.key ≠ key) (t : Tree) (d : Draft)
    (ms ms' : List (Option String × Tree)) :
    ofMembers? d (ms ++ (some key, t) :: ms') = ofMembers? d (ms ++ ms') := by
  rw [ofMembers?_perm List.perm_middle, ofMembers?_cons, enter?_of_unknown h, Option.bind_some]

/-- A field that members do not name can be set before them or after them. -/
theorem ofMembers?_set {f : Field} {ms : List (Option String × Tree)}
    (h : ∀ m ∈ ms, m.1 ≠ some f.key) (d : Draft) (c : f.Content) :
    ofMembers? (d.set f c) ms = (ofMembers? d ms).map (·.set f c) := by
  -- past each member, which is of another field or of none
  induction ms generalizing d with
  | nil => rfl
  | cons m ms ih =>
    obtain ⟨hm, hms⟩ := List.forall_mem_cons.1 h
    obtain ⟨_ | key, t⟩ := m
    · rfl
    rw [ofMembers?_cons, ofMembers?_cons]
    obtain hkey | ⟨g, rfl⟩ := key_cases key
    · rw [enter?_of_unknown hkey, enter?_of_unknown hkey, Option.bind_some, Option.bind_some,
        ih hms]
    · have hne : f ≠ g := by
        rintro rfl
        exact hm rfl
      rw [enter?_key, enter?_key, set_of_ne _ hne]
      by_cases hd : (d g).isSome
      · simp [hd]
      · cases hg : g.ofTree? t with
        | none => simp [hd]
        | some c' =>
          rw [if_neg hd, if_neg hd, Option.map_some, Option.map_some, Option.bind_some,
            Option.bind_some, set_comm _ hne, ih hms]

/-- A field that is noted stays as it is, and no member names it again. -/
theorem ofMembers?_keeps {f : Field} {c : f.Content} {ms : List (Option String × Tree)}
    {d d' : Draft} (hd : d f = some c) (h : ofMembers? d ms = some d') :
    d' f = some c ∧ ∀ m ∈ ms, m.1 ≠ some f.key := by
  -- one member after the other, each of which could only add a field
  induction ms generalizing d with
  | nil =>
    obtain rfl : d = d' := Option.some.inj h
    exact ⟨hd, by simp⟩
  | cons m ms ih =>
    obtain ⟨_ | key, t⟩ := m
    · exact nomatch h
    rw [ofMembers?_cons] at h
    obtain ⟨d₁, hd₁, hms⟩ := Option.bind_eq_some_iff.1 h
    rw [List.forall_mem_cons]
    obtain ⟨hkey, rfl⟩ | ⟨g, c', rfl, hnew, -, rfl⟩ := enter?_cases hd₁
    · obtain ⟨hf, habsent⟩ := ih hd hms
      exact ⟨hf, fun heq => hkey f (Option.some.inj heq).symm, habsent⟩
    · -- the field is there already, so this member is of another one
      have hne : g ≠ f := by
        rintro rfl
        exact nomatch hnew.symm.trans hd
      obtain ⟨hf, habsent⟩ := ih (by rw [set_of_ne _ hne, hd]) hms
      exact ⟨hf, fun heq => hne (Field.key_injective (Option.some.inj heq)), habsent⟩

/-- Each field holds what the member with its key gives, and nothing if there is none. -/
theorem ofMembers?_lookup {f : Field} {ms : List (Option String × Tree)} {d d' : Draft}
    (hd : d f = none) (h : ofMembers? d ms = some d') :
    (ms.lookup (some f.key)).map f.ofTree? = (d' f).map some := by
  induction ms generalizing d with
  | nil =>
    obtain rfl : d = d' := Option.some.inj h
    rw [hd]
    rfl
  | cons m ms ih =>
    obtain ⟨_ | key, t⟩ := m
    · exact nomatch h
    rw [ofMembers?_cons] at h
    obtain ⟨d₁, hd₁, hms⟩ := Option.bind_eq_some_iff.1 h
    rw [List.lookup_cons]
    obtain ⟨hkey, rfl⟩ | ⟨g, c, rfl, -, hc, rfl⟩ := enter?_cases hd₁
    · rw [beq_false_of_ne (mt Option.some.inj (hkey f))]
      exact ih hd hms
    -- the first member with the key is the only one
    · by_cases hfg : f = g
      · subst hfg
        simp [hc, (ofMembers?_keeps (set_self d f c) hms).1]
      · rw [beq_false_of_ne (mt Option.some.inj (mt Field.key_injective hfg))]
        exact ih (by rw [set_of_ne _ (Ne.symm hfg), hd]) hms

/-- The first fields come to hold the values of a list; those after its end are left alone. -/
theorem ofItems?_eq_some {fs : List Field} (hfs : fs.Nodup) {ts : List Tree} (d : Draft)
    (hlen : ts.length ≤ fs.length) {want : (f : Field) → Option f.Content}
    (hwant : ∀ p ∈ fs.zip ts, ∃ c, p.1.ofTree? p.2 = some c ∧ want p.1 = some c) :
    ∃ d', ofItems? fs d ts = some d' ∧
      (∀ f ∈ fs.take ts.length, ∃ c, d' f = some c ∧ want f = some c) ∧
      ∀ f ∉ fs.take ts.length, d' f = d f := by
  induction fs generalizing d ts with
  | nil =>
    obtain rfl : ts = [] := List.length_eq_zero_iff.1 (Nat.le_zero.1 hlen)
    exact ⟨d, rfl, by simp, by simp⟩
  | cons f fs ih =>
    cases ts with
    | nil => exact ⟨d, rfl, by simp, by simp⟩
    | cons t ts =>
      rw [List.nodup_cons] at hfs
      rw [List.zip_cons_cons, List.forall_mem_cons] at hwant
      obtain ⟨⟨c, ht, hf⟩, hwant⟩ := hwant
      obtain ⟨d', hd', htake, hrest⟩ := ih hfs.2 (d.set f c) (by simpa using hlen) hwant
      -- no field has two places, so the later values leave this one alone
      have hnot : f ∉ fs.take ts.length := fun h => hfs.1 (List.mem_of_mem_take h)
      have hnow : ∃ c, d' f = some c ∧ want f = some c := ⟨c, by rw [hrest f hnot, set_self], hf⟩
      rw [List.length_cons, List.take_succ_cons]
      refine ⟨d', ?_, List.forall_mem_cons.2 ⟨hnow, htake⟩, fun g hg => ?_⟩
      · rw [ofItems?, ht, Option.bind_some, hd']
      · rw [List.mem_cons, not_or] at hg
        rw [hrest g hg.2, set_of_ne _ (Ne.symm hg.1)]

/-- What a field holds in the end: its blank value stands in for one that is not there. -/
def filled (d : Draft) (f : Field) : Option f.Content := (d f).or (f.blank?.bind f.ofTree?)

/-- A field that is there holds what it was set to. -/
theorem filled_of_some {d : Draft} {f : Field} {c : f.Content} (h : d f = some c) :
    d.filled f = some c := by
  rw [filled, h, Option.some_or]

/-- A field that is not there holds its blank value, if it has one. -/
theorem filled_of_none {d : Draft} {f : Field} (h : d f = none) :
    d.filled f = f.blank?.bind f.ofTree? := by
  rw [filled, h, Option.none_or]

/-- The track depends only on what the fields hold in the end. -/
theorem track?_congr {d d' : Draft} (h : ∀ f, d.filled f = d'.filled f) :
    d.track? = d'.track? := by
  -- only the identifier has no blank value
  have hid : d .id = d' .id := by simpa [filled, Field.blank?] using h .id
  have hget : ∀ {f : Field} (c : f.Content), f.blank?.bind f.ofTree? = some c →
      (d f).getD c = (d' f).getD c := by
    intro f c hc
    have hf := h f
    rw [filled, filled, hc] at hf
    cases hd : d f <;> cases hd' : d' f <;> simp_all
  rw [track?, track?, hid]
  congr 1
  funext id
  congr 1
  all_goals exact hget _ rfl

/-- A field that is not noted can be noted as blank. -/
theorem track?_set_blank {d : Draft} {f : Field} {t : Tree} {c : f.Content} (hd : d f = none)
    (hblank : f.blank? = some t) (hc : f.ofTree? t = some c) : (d.set f c).track? = d.track? := by
  refine track?_congr fun g => ?_
  -- the field itself holds the same in the end, and so do all others
  by_cases hfg : f = g
  · subst hfg
    rw [filled_of_some (set_self d f c), filled_of_none hd, hblank, Option.bind_some, hc]
  · rw [filled, filled, set_of_ne _ hfg]

end Draft

/-! ## Rewriting a track -/

namespace Track

/-- The value that members say for a field: if none of them names it, its blank value. -/
def said (ms : List (Option String × Tree)) (f : Field) : Option Tree :=
  (ms.lookup (some f.key)).or f.blank?

/-- One way to write a track otherwise. -/
inductive Rewrite : Tree → Tree → Prop where
  | permute {ms ms' : List (Option String × Tree)} (h : ms.Perm ms') :
    Rewrite (.object ms) (.object ms')
  /-- Any value may stand under a key that is not the key of a field. -/
  | insert {key : String} (hkey : ∀ f : Field, f.key ≠ key) (t : Tree)
    (ms ms' : List (Option String × Tree)) :
    Rewrite (.object (ms ++ ms')) (.object (ms ++ (some key, t) :: ms'))
  | addBlank {f : Field} {t : Tree} {ms ms' : List (Option String × Tree)}
    (hblank : f.blank? = some t) (habsent : ∀ m ∈ ms ++ ms', m.1 ≠ some f.key) :
    Rewrite (.object (ms ++ ms')) (.object (ms ++ (some f.key, t) :: ms'))
  | removeBlank {f : Field} {t : Tree} (hblank : f.blank? = some t)
    (ms ms' : List (Option String × Tree)) :
    Rewrite (.object (ms ++ (some f.key, t) :: ms')) (.object (ms ++ ms'))
  /-- The values of the first fields make a list, if the later fields are blank. -/
  | asList {ms : List (Option String × Tree)} {ts : List Tree}
    (hlen : ts.length ≤ Field.all.length)
    (hfirst : ∀ p ∈ Field.all.zip ts, said ms p.1 = some p.2)
    (hlater : ∀ f ∈ Field.all.drop ts.length, said ms f = f.blank?) :
    Rewrite (.object ms) (.list ts)

/-- A track in object form is what its members make of an empty draft. -/
theorem ofTree?_object (ms : List (Option String × Tree)) :
    ofTree? (.object ms) = (Draft.ofMembers? .empty ms).bind Draft.track? := rfl

/-- A track in list form is what its values make of an empty draft. -/
theorem ofTree?_list (ts : List Tree) :
    ofTree? (.list ts) = (Draft.ofItems? Field.all .empty ts).bind Draft.track? := rfl

/-- A member with the blank value of a field is of no matter, if no other member names the field. -/
theorem ofTree?_insert_blank {f : Field} {t : Tree} {ms ms' : List (Option String × Tree)}
    (hblank : f.blank? = some t) (habsent : ∀ m ∈ ms ++ ms', m.1 ≠ some f.key) :
    ofTree? (.object (ms ++ (some f.key, t) :: ms')) = ofTree? (.object (ms ++ ms')) := by
  obtain ⟨c, hc⟩ := Field.exists_ofTree?_blank hblank
  have hlookup : (ms ++ ms').lookup (some f.key) = none :=
    List.lookup_eq_none_iff.2 fun m hm => by simpa using Ne.symm (habsent m hm)
  -- the member is brought to the front, where the draft is still empty
  have hset : (Draft.empty.enter? f.key t) = some (Draft.empty.set f c) := by
    rw [Draft.enter?_key, hc]
    rfl
  rw [ofTree?_object, ofTree?_object, Draft.ofMembers?_perm List.perm_middle,
    Draft.ofMembers?_cons, hset, Option.bind_some, Draft.ofMembers?_set habsent]
  cases hd : Draft.ofMembers? .empty (ms ++ ms') with
  | none => rfl
  | some d =>
    have hnone : d f = none := by
      simpa [hlookup] using (Draft.ofMembers?_lookup (f := f) rfl hd).symm
    exact Draft.track?_set_blank hnone hblank hc

/-- No field is named twice by the members of a track. -/
theorem absent_of_ofTree? {f : Field} {t : Tree} {ms ms' : List (Option String × Tree)} {a : Track}
    (h : ofTree? (.object (ms ++ (some f.key, t) :: ms')) = some a) :
    ∀ m ∈ ms ++ ms', m.1 ≠ some f.key := by
  rw [ofTree?_object, Draft.ofMembers?_perm List.perm_middle, Draft.ofMembers?_cons,
    Draft.enter?_key] at h
  -- once the member is at the front, its field is set before the others come
  obtain ⟨d, hd, -⟩ := Option.bind_eq_some_iff.1 h
  obtain ⟨d₁, hd₁, hd⟩ := Option.bind_eq_some_iff.1 hd
  obtain ⟨c, -, rfl⟩ := Option.map_eq_some_iff.1 hd₁
  exact (Draft.ofMembers?_keeps (Draft.set_self _ f c) hd).2

/-- In the end a field holds what the members say for it. -/
theorem filled_eq_said {ms : List (Option String × Tree)} {d : Draft}
    (h : Draft.ofMembers? .empty ms = some d) (f : Field) :
    d.filled f = (said ms f).bind f.ofTree? := by
  have hlookup := Draft.ofMembers?_lookup (f := f) rfl h
  -- either a member names the field, or its blank value stands in
  cases hs : ms.lookup (some f.key) with
  | none =>
    have hd : d f = none := by simpa [hs] using hlookup.symm
    rw [Draft.filled_of_none hd, said, hs, Option.none_or]
  | some t =>
    obtain ⟨c, hd, hc⟩ : ∃ c, d f = some c ∧ f.ofTree? t = some c := by
      simpa [hs, Option.map_eq_some_iff, eq_comm] using hlookup.symm
    rw [Draft.filled_of_some hd, said, hs, Option.some_or, Option.bind_some, hc]

/-- The members say nothing for a field that it cannot hold. -/
theorem exists_ofTree?_of_said {ms : List (Option String × Tree)} {d : Draft}
    (h : Draft.ofMembers? .empty ms = some d) {f : Field} {t : Tree} (hf : said ms f = some t) :
    ∃ c, f.ofTree? t = some c := by
  have hlookup := Draft.ofMembers?_lookup (f := f) rfl h
  cases hs : ms.lookup (some f.key) with
  | none =>
    rw [said, hs, Option.none_or] at hf
    exact Field.exists_ofTree?_blank hf
  | some t' =>
    obtain rfl : t' = t := by simpa [said, hs] using hf
    obtain ⟨c, -, hc⟩ : ∃ c, d f = some c ∧ f.ofTree? t' = some c := by
      simpa [hs, Option.map_eq_some_iff, eq_comm] using hlookup.symm
    exact ⟨c, hc⟩

/-- A track that is written otherwise is the same track. -/
theorem Rewrite.keeps {t t' : Tree} (h : Rewrite t t') {a : Track} (ha : ofTree? t = some a) :
    ofTree? t' = some a := by
  cases h with
  | permute h => rwa [ofTree?_object, ← Draft.ofMembers?_perm h]
  | insert hkey t ms ms' => rwa [ofTree?_object, Draft.ofMembers?_insert hkey]
  | addBlank hblank habsent => rwa [ofTree?_insert_blank hblank habsent]
  | removeBlank hblank ms ms' => rwa [ofTree?_insert_blank hblank (absent_of_ofTree? ha)] at ha
  | @asList ms ts hlen hfirst hlater =>
    rw [ofTree?_object] at ha
    obtain ⟨d, hd, ha⟩ := Option.bind_eq_some_iff.1 ha
    -- each value of the list is what the members said for the field at its place
    have hwant : ∀ p ∈ Field.all.zip ts, ∃ c, p.1.ofTree? p.2 = some c ∧ d.filled p.1 = some c := by
      intro p hp
      have hsaid := hfirst p hp
      obtain ⟨c, hc⟩ := exists_ofTree?_of_said hd hsaid
      exact ⟨c, hc, by rw [filled_eq_said hd, hsaid, Option.bind_some, hc]⟩
    obtain ⟨d', hd', htake, hrest⟩ := Draft.ofItems?_eq_some Field.nodup_all .empty hlen hwant
    rw [ofTree?_list, hd', Option.bind_some, ← ha]
    -- a field with a place in the list holds what the members said; the others are blank in both
    refine Draft.track?_congr fun f => ?_
    by_cases hf : f ∈ Field.all.take ts.length
    · obtain ⟨c, hc, hfilled⟩ := htake f hf
      rw [Draft.filled_of_some hc, hfilled]
    · have hdrop : f ∈ Field.all.drop ts.length := by
        have hall := f.mem_all
        rw [← List.take_append_drop ts.length Field.all, List.mem_append] at hall
        exact hall.resolve_left hf
      rw [Draft.filled_of_none (hrest f hf), filled_eq_said hd, hlater f hdrop]

end Track

/-! ## Rewriting a reply -/

namespace Reply

/-- One way to write a reply otherwise. -/
inductive Rewrite : Tree → Tree → Prop where
  | permute {ms ms' : List (Option String × Tree)} (h : ms.Perm ms') :
    Rewrite (.object ms) (.object ms')
  /-- Any value may stand under a key that is not the key of the tracks. -/
  | insert {key : String} (hkey : key ≠ resultsKey) (t : Tree)
    (ms ms' : List (Option String × Tree)) :
    Rewrite (.object (ms ++ ms')) (.object (ms ++ (some key, t) :: ms'))
  /-- A track may be written otherwise, in an object. -/
  | track {t t' : Tree} (h : Track.Rewrite t t') (ts ts' : List Tree)
    (ms ms' : List (Option String × Tree)) :
    Rewrite (.object (ms ++ (some resultsKey, .list (ts ++ t :: ts')) :: ms'))
      (.object (ms ++ (some resultsKey, .list (ts ++ t' :: ts')) :: ms'))
  /-- A track may be written otherwise, in a list. -/
  | trackInList {t t' : Tree} (h : Track.Rewrite t t') (ts ts' : List Tree) :
    Rewrite (.list [.list (ts ++ t :: ts')]) (.list [.list (ts ++ t' :: ts')])
  /-- The tracks alone make a list. -/
  | asList {ms : List (Option String × Tree)} {t : Tree} (h : (some resultsKey, t) ∈ ms) :
    Rewrite (.object ms) (.list [t])

/-- The member with the tracks gives them, if there are none yet. -/
theorem enter?_resultsKey (t : Tree) :
    enter? none resultsKey t = (t.list? Track.ofTree?).map some := rfl

/-- Any other member leaves the tracks alone. -/
theorem enter?_of_ne {key : String} (h : key ≠ resultsKey) (tracks : Option (List Track))
    (t : Tree) : enter? tracks key t = some tracks :=
  if_neg h

/-- Two members can be entered in either order. -/
theorem enter?_comm (tracks : Option (List Track)) (key : String) (t : Tree) (key' : String)
    (t' : Tree) :
    (enter? tracks key t).bind (enter? · key' t') =
      (enter? tracks key' t').bind (enter? · key t) := by
  by_cases hkey : key = resultsKey
  · by_cases hkey' : key' = resultsKey
    · -- the second of the two fails, whichever it is
      subst hkey hkey'
      cases tracks <;> cases ht : t.list? Track.ofTree? <;> cases ht' : t'.list? Track.ofTree? <;>
        simp [enter?, ht, ht']
    · simp [enter?_of_ne hkey']
  · simp [enter?_of_ne hkey]

/-- So the order of members is of no matter. -/
theorem ofMembers?_perm {ms ms' : List (Option String × Tree)} (h : ms.Perm ms') :
    ofMembers? ms = ofMembers? ms' := by
  rw [ofMembers?, ofMembers?, Tree.foldMembers?_perm enter?_comm h]

/-- Tracks that have been noted stay as they are. -/
theorem foldMembers?_some {tracks : List Track} {ms : List (Option String × Tree)}
    {tracks' : Option (List Track)} (h : Tree.foldMembers? enter? (some tracks) ms = some tracks') :
    tracks' = some tracks := by
  induction ms with
  | nil => exact (Option.some.inj h).symm
  | cons m ms ih =>
    obtain ⟨_ | key, t⟩ := m
    · cases h
    obtain ⟨tracks₁, henter, h⟩ := Option.bind_eq_some_iff.1 h
    rw [enter?] at henter
    split at henter
    -- tracks that come a second time are refused
    · cases henter
    · obtain rfl := Option.some.inj henter
      exact ih h

/-- The tracks of a reply, once their member is brought to the front. -/
theorem ofMembers?_results {t : Tree} (ms ms' : List (Option String × Tree)) :
    ofMembers? (ms ++ (some resultsKey, t) :: ms') = (t.list? Track.ofTree?).bind fun tracks =>
      (Tree.foldMembers? enter? (some tracks) (ms ++ ms')).map fun _ => tracks := by
  rw [ofMembers?_perm List.perm_middle, ofMembers?, Tree.foldMembers?, enter?_resultsKey]
  cases t.list? Track.ofTree? with
  | none => rfl
  | some tracks =>
    rw [Option.map_some, Option.bind_some, Option.bind_some]
    -- the other members can refuse, but not change the tracks
    cases h : Tree.foldMembers? enter? (some tracks) (ms ++ ms') with
    | none => rfl
    | some tracks' =>
      obtain rfl := foldMembers?_some h
      rfl

/-- A track of a list may be written otherwise. -/
theorem list?_rewrite {t t' : Tree} (h : Track.Rewrite t t') (ts ts' : List Tree)
    {tracks : List Track} (ht : (Tree.list (ts ++ t :: ts')).list? Track.ofTree? = some tracks) :
    (Tree.list (ts ++ t' :: ts')).list? Track.ofTree? = some tracks := by
  rw [Tree.list?, List.mapM_append, List.mapM_cons] at ht ⊢
  -- the tracks around it are read as before
  cases hfirst : Track.ofTree? t with
  | none => simp [hfirst] at ht
  | some a => rwa [h.keeps hfirst, ← hfirst]

/-- A reply that is written otherwise lists the same tracks. -/
theorem Rewrite.keeps {t t' : Tree} (h : Rewrite t t') {tracks : List Track}
    (ht : ofTree? t = some tracks) : ofTree? t' = some tracks := by
  cases h with
  | permute h => rwa [ofTree?, Tree.record?, ← ofMembers?_perm h]
  | @insert key hkey t ms ms' =>
    -- brought to the front, the new member is entered without effect
    rw [ofTree?, Tree.record?, ofMembers?_perm List.perm_middle, ofMembers?, Tree.foldMembers?,
      enter?_of_ne hkey, Option.bind_some]
    exact ht
  | track h ts ts' ms ms' =>
    rw [ofTree?, Tree.record?, ofMembers?_results] at ht ⊢
    obtain ⟨tracks', hlist, ht⟩ := Option.bind_eq_some_iff.1 ht
    rw [list?_rewrite h ts ts' hlist]
    exact ht
  | trackInList h ts ts' => exact list?_rewrite h ts ts' ht
  | asList h =>
    -- no second member has this key, or the object would not have been read
    obtain ⟨ms, ms', rfl⟩ := List.append_of_mem h
    rw [ofTree?, Tree.record?, ofMembers?_results] at ht
    obtain ⟨tracks', hlist, ht⟩ := Option.bind_eq_some_iff.1 ht
    obtain ⟨-, -, rfl⟩ := Option.map_eq_some_iff.1 ht
    exact hlist

/-- So does one that is written otherwise any number of times. -/
theorem ofTree?_of_rewrites {t t' : Tree} (h : Relation.ReflTransGen Rewrite t t')
    {tracks : List Track} (ht : ofTree? t = some tracks) : ofTree? t' = some tracks := by
  -- one rewriting at a time
  induction h with
  | refl => exact ht
  | tail _ hstep ih => exact hstep.keeps ih

/-- A reply lists the same tracks however it is written.  It says one tree; whatever this becomes by
rewriting the reply and its tracks any number of times, and however that is then spelled, is read as
the same tracks in the same order. -/
theorem rewriting_keeps_tracks {s : Bytes} {tracks : List Track} (h : ofJson s = .ok tracks) :
    ∃ t, Says s t ∧ ∀ t' s', Relation.ReflTransGen Rewrite t t' → Says s' t' →
      ofJson s' = .ok tracks := by
  obtain ⟨t, hs, ht⟩ := ofJson_eq_ok.1 h
  exact ⟨t, hs, fun t' s' hrewrites hs' =>
    (ofJson_of_tree hs').2 (ofTree?_of_rewrites hrewrites ht)⟩

/-- A track becomes a list, and a member comes in whose value spells no text. -/
theorem rewriting_keeps_tracks_of_list_after_text :
    ofJson (Text.octets "\x7b\"results\":[\x7b\"\\u0069d\":7\x7d]\x7d") = .ok [{ id := 7 }] ∧
    ofJson (Text.octets " \x7b\"n\":\"\\ud800\",\"results\":[[7]]\x7d") = .ok [{ id := 7 }] := by
  have hresults : Quoted (Text.octets "results") (some resultsKey) :=
    .text (content_of_plain (by decide +kernel))
  have hunit : Hex [0x30, 0x30, 0x36, 0x39] (((0 * 16 + 0) * 16 + 6) * 16 + 9) :=
    .mk rfl rfl rfl rfl
  have hd : Content [0x64] [0x64] := content_of_plain (by decide +kernel)
  have hid : Quoted (Text.octets "\\u0069d") (some Field.id.key) :=
    .text (.escape (.unit hunit rfl rfl) hd)
  have hn : Quoted [0x6e] (some "n") := .text (content_of_plain (by decide +kernel))
  -- the escape is half of a surrogate pair, which no text has
  have hnone : Quoted (Text.octets "\\ud800") none := by
    refine .other (.unit (.mk rfl rfl rfl rfl) .nil) fun t ht => ?_
    exact nomatch (readText_append ht []).symm.trans
      (by decide +kernel : readText _ = .error .malformed)
  have hdigits : IsDigits [0x37] := ⟨by decide, by decide +kernel⟩
  have hseven : Spells [0x37] (.value (.number ⟨false, [0x37], none, none⟩)) :=
    .number (@Numeral.Spelled.mk false _ _ _ _ _ hdigits (by decide) .none .none)
  have htrack := Spells.object (.member (.first .nil) hid .nil .nil hseven (.endMembers .nil))
  have hs := Spells.object (.member (.first .nil) hresults .nil .nil
    (.list (.item (.first .nil) htrack (.endItems .nil))) (.endMembers .nil))
  have hlist := Spells.list (.item (.first .nil) hseven (.endItems .nil))
  have hs' := Spells.object (.member (.first .nil) hn .nil .nil (.text hnone)
    (.member (.later .nil .nil) hresults .nil .nil
      (.list (.item (.first .nil) hlist (.endItems .nil))) (.endMembers .nil)))
  have h : ofJson (Text.octets "\x7b\"results\":[\x7b\"\\u0069d\":7\x7d]\x7d") =
    .ok [{ id := 7 }] := by decide +kernel
  obtain ⟨t, ht, hkeeps⟩ := rewriting_keeps_tracks h
  obtain rfl := ht.unique ⟨[], _, [], .nil, .nil, rfl, hs⟩
  refine ⟨h, hkeeps _ _ ?_ ⟨[0x20], _, [], by simp [IsBlank, isSpace], .nil, rfl, hs'⟩⟩
  -- first the new member, then the track as a list
  refine .tail (.single (.insert (by decide) _ [] _))
    (.track (.asList (by decide) ?_ ?_) [] [] [_] [])
  · rintro p hp
    obtain rfl := List.mem_singleton.1 hp
    rfl
  · rintro (_ | _) hf
    · exact absurd hf (by decide)
    all_goals rfl

end Reply

end LibraryPlayer
