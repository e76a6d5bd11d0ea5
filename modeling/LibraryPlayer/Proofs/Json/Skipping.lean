import LibraryPlayer.Proofs.Json.Numerals
import LibraryPlayer.Proofs.Json.Texts

/-!
# Passing over values

`skip` passes over exactly what the grammar calls a value, of any depth: `skip_of_spells` and
`spells_of_skip`.  As it finds one end only, the grammar is unambiguous: octets say one tree at most
(`Spells.unique`, `Says.unique`).
-/

namespace LibraryPlayer.Json

/-! ## How values start and where they end -/

/-- An octet that can be the first one of a value. -/
structure StartsValue (b : UInt8) : Prop where
  not_space : isSpace b = false
  ne_closeList : b ≠ closeList
  ne_closeObject : b ≠ closeObject

/-- What starts a value closes nothing. -/
theorem StartsValue.ne_closing {b closing : UInt8} (h : StartsValue b) (hc : IsClosing closing) :
    b ≠ closing := by
  obtain rfl | rfl := hc
  · exact h.ne_closeList
  · exact h.ne_closeObject

/-- What starts a numeral starts no other value, and is neither a blank nor a closing bracket. -/
theorem startsNumber_cases {b : UInt8} (h : startsNumber b = true) :
    b ≠ quote ∧ b ≠ openList ∧ b ≠ openObject ∧ isSpace b = false ∧ b ≠ closeList ∧
      b ≠ closeObject := by
  -- each of these marks starts no numeral, which is computed
  have hne {c : UInt8} (hc : startsNumber c = false) : b ≠ c := by
    rintro rfl
    simp [h] at hc
  refine ⟨hne (by decide), hne (by decide), hne (by decide), ?_, hne (by decide), hne (by decide)⟩
  simp [isSpace, hne (c := 0x20) (by decide), hne (c := 0x09) (by decide),
    hne (c := 0x0a) (by decide), hne (c := 0x0d) (by decide)]

/-- A value has a first octet, which can be told from blanks and closing brackets. -/
theorem Spells.head {s : Bytes} {t : Tree} (h : Spells s (.value t)) :
    ∃ b u, s = b :: u ∧ StartsValue b := by
  cases h with
  | nullLiteral => exact ⟨_, _, rfl, by decide, by decide, by decide⟩
  | trueLiteral => exact ⟨_, _, rfl, by decide, by decide, by decide⟩
  | falseLiteral => exact ⟨_, _, rfl, by decide, by decide, by decide⟩
  -- a numeral starts with a sign or a digit, all others with a fixed mark
  | number h =>
    obtain ⟨b, u, rfl, hb⟩ := h.head
    obtain ⟨-, -, -, hspace, hlist, hobject⟩ := startsNumber_cases hb
    exact ⟨b, u, rfl, hspace, hlist, hobject⟩
  | text => exact ⟨_, _, rfl, by decide, by decide, by decide⟩
  | list => exact ⟨_, _, rfl, by decide, by decide, by decide⟩
  | object => exact ⟨_, _, rfl, by decide, by decide, by decide⟩

/-- Only the blanks before a value are skipped. -/
theorem skipSpace_value {s : Bytes} {t : Tree} (h : Spells s (.value t)) {g : Bytes}
    (hg : IsBlank g) (rest : Bytes) : skipSpace (g ++ (s ++ rest)) = s ++ rest := by
  obtain ⟨b, u, rfl, hb⟩ := h.head
  rw [skipSpace_append hg, List.cons_append, skipSpace_cons hb.not_space]

/-- A value is found as the next item, behind what stands in front of it. -/
theorem next_value {s : Bytes} {t : Tree} (h : Spells s (.value t)) {closing : UInt8}
    (hclosing : IsClosing closing) {first : Bool} {lead : Bytes} (hlead : Lead first lead)
    (rest : Bytes) : next closing first (lead ++ (s ++ rest)) = .ok (.item (s ++ rest)) := by
  obtain ⟨b, u, rfl, hb⟩ := h.head
  exact next_item hclosing hlead hb.not_space (hb.ne_closing hclosing) (u ++ rest)

/-- No numeral has blanks in it. -/
theorem not_isNumeralOctet_of_isSpace {b : UInt8} (h : isSpace b = true) :
    isNumeralOctet b = false := by
  simp only [isSpace, Bool.or_eq_true, beq_iff_eq] at h
  obtain ((rfl | rfl) | rfl) | rfl := h <;> decide

/-- A numeral is over before blanks and a mark that is no part of one. -/
theorem stops_of_blank {g : Bytes} (hg : IsBlank g) {b : UInt8} (hb : isNumeralOctet b = false)
    (s : Bytes) : Stops (g ++ b :: s) := by
  cases g with
  | nil => exact stops_cons hb
  | cons c g => exact stops_cons (not_isNumeralOctet_of_isSpace (hg c List.mem_cons_self))

/-- Blanks end a numeral. -/
theorem stops_blank {g : Bytes} (hg : IsBlank g) : Stops g := fun b hb =>
  not_isNumeralOctet_of_isSpace (hg b (List.mem_of_mem_head? hb))

/-- So does what stands in front of a further item. -/
theorem stops_of_lead {lead : Bytes} (h : Lead false lead) (s : Bytes) : Stops (lead ++ s) := by
  obtain - | ⟨hg, -⟩ := h
  rw [List.append_assoc, List.cons_append]
  exact stops_of_blank hg (by decide) _

/-- So does what is left of a list after an item. -/
theorem stops_of_items {s : Bytes} {ts : List Tree} (h : Spells s (.items false ts))
    (rest : Bytes) : Stops (s ++ rest) := by
  cases h with
  | endItems hg =>
    rw [List.append_assoc]
    exact stops_of_blank hg (by decide) _
  | item hlead =>
    rw [List.append_assoc]
    exact stops_of_lead hlead _

/-- So does what is left of an object after a member. -/
theorem stops_of_members {s : Bytes} {ms : List (Option String × Tree)}
    (h : Spells s (.members false ms)) (rest : Bytes) : Stops (s ++ rest) := by
  cases h with
  | endMembers hg =>
    rw [List.append_assoc]
    exact stops_of_blank hg (by decide) _
  | member hlead =>
    rw [List.append_assoc]
    exact stops_of_lead hlead _

/-- That holds without anything behind it. -/
theorem stops_items {s : Bytes} {ts : List Tree} (h : Spells s (.items false ts)) : Stops s := by
  simpa using stops_of_items h []

/-- That holds without anything behind it. -/
theorem stops_members {s : Bytes} {ms : List (Option String × Tree)}
    (h : Spells s (.members false ms)) : Stops s := by
  simpa using stops_of_members h []

/-- What stands in front of an item may have further blanks at its end. -/
theorem Lead.append_blank {first : Bool} {lead g : Bytes} (h : Lead first lead)
    (hg : IsBlank g) : Lead first (lead ++ g) := by
  cases h with
  | first h => exact .first (h.append hg)
  | later h h' =>
    rw [List.append_assoc, List.cons_append]
    exact .later h (h'.append hg)

/-! ## What is passed over -/

/-- Blanks before a value are passed over with it. -/
theorem skipValue_append {g : Bytes} (hg : IsBlank g) (n : Nat) (s : Bytes) :
    skipValue n (g ++ s) = skipValue n s := by
  cases n with
  | zero => rfl
  | succ n => rw [skipValue, skipValue, skipSpace_append hg]

/-- A quotation mark starts a text. -/
theorem skipValue_quote (n : Nat) (s : Bytes) : skipValue (n + 1) (quote :: s) = skipText s := by
  rw [skipValue, skipSpace_cons (by decide)]
  exact if_pos rfl

/-- An opening bracket starts a list. -/
theorem skipValue_list (n : Nat) (s : Bytes) :
    skipValue (n + 1) (openList :: s) = skipItems n true s := by
  rw [skipValue, skipSpace_cons (by decide)]
  rfl

/-- An opening brace starts an object. -/
theorem skipValue_object (n : Nat) (s : Bytes) :
    skipValue (n + 1) (openObject :: s) = skipMembers n true s := by
  rw [skipValue, skipSpace_cons (by decide)]
  rfl

/-- A sign or a digit starts a numeral. -/
theorem skipValue_number {b : UInt8} (hb : startsNumber b = true) (n : Nat) (s : Bytes) :
    skipValue (n + 1) (b :: s) = (Numeral.read .malformed (b :: s)).map Prod.snd := by
  obtain ⟨hquote, hlist, hobject, hspace, -⟩ := startsNumber_cases hb
  rw [skipValue, skipSpace_cons hspace]
  simp [hquote, hlist, hobject, hb]

/-- A literal is passed over as a whole. -/
theorem skipValue_literal {w : Bytes} {t : Tree} (h : Spells w (.value t))
    (hw : w = [0x6e, 0x75, 0x6c, 0x6c] ∨ w = [0x74, 0x72, 0x75, 0x65] ∨
      w = [0x66, 0x61, 0x6c, 0x73, 0x65]) (n : Nat) (s : Bytes) :
    skipValue (n + 1) (w ++ s) = .ok s := by
  have hspace := skipSpace_value h .nil s
  rw [List.nil_append] at hspace
  rw [skipValue, hspace]
  obtain rfl | rfl | rfl := hw <;> rfl

/-- Passes over a part of a text. -/
def Phrase.pass (fuel : Nat) : Phrase → Bytes → Except Fault Bytes
  | value _ => skipValue fuel
  | items first _ => skipItems fuel first
  | members first _ => skipMembers fuel first

/-- A part of a text may be followed by these octets: only a value can be taken to go on. -/
def Phrase.EndsAt (rest : Bytes) : Phrase → Prop
  | value _ => Stops rest
  | _ => True

/-- Nothing is said by no octets. -/
theorem Spells.ne_nil {s : Bytes} {p : Phrase} (h : Spells s p) : s ≠ [] := by
  cases h with
  | number h =>
    obtain ⟨b, u, rfl, -⟩ := h.head
    exact List.cons_ne_nil b u
  | item hlead h h' =>
    obtain ⟨b, u, rfl, -⟩ := h.head
    simp
  | _ => simp

/-- What is in the grammar is passed over, whatever its depth: its length is fuel enough. -/
theorem pass_of_spells {s : Bytes} {p : Phrase} (h : Spells s p) {fuel : Nat}
    (hfuel : s.length ≤ fuel) {rest : Bytes} (hrest : p.EndsAt rest) :
    p.pass fuel (s ++ rest) = .ok rest := by
  -- on the fuel, since the grammar goes down in three ways; each level uses up an octet at least
  induction fuel generalizing s p rest with
  | zero => exact absurd (List.length_eq_zero_iff.1 (Nat.le_zero.1 hfuel)) h.ne_nil
  | succ n ih =>
    cases h with
    | nullLiteral => exact skipValue_literal .nullLiteral (.inl rfl) n rest
    | trueLiteral => exact skipValue_literal .trueLiteral (.inr (.inl rfl)) n rest
    | falseLiteral => exact skipValue_literal .falseLiteral (.inr (.inr rfl)) n rest
    | number h =>
      obtain ⟨b, u, rfl, hb⟩ := h.head
      have hread := Numeral.read_of_spelled h hrest .malformed
      rw [List.cons_append] at hread ⊢
      rw [Phrase.pass, skipValue_number hb, hread]
      rfl
    | text h =>
      rw [Phrase.pass, List.cons_append, skipValue_quote, List.append_assoc]
      exact skipText_append h.passable rest
    | list h =>
      rw [Phrase.pass, List.cons_append, skipValue_list]
      exact ih h (Nat.le_of_succ_le_succ hfuel) trivial
    | object h =>
      rw [Phrase.pass, List.cons_append, skipValue_object]
      exact ih h (Nat.le_of_succ_le_succ hfuel) trivial
    | endItems hg =>
      rw [Phrase.pass, skipItems, List.append_assoc, List.singleton_append,
        next_close (.inl rfl) hg]
      rfl
    | @item lead s s' first t ts hlead h h' =>
      have hlen := List.length_pos_iff.2 h.ne_nil
      have hlen' := List.length_pos_iff.2 h'.ne_nil
      simp only [List.length_append] at hfuel
      -- after an item comes a comma or the end, where a numeral is over
      have hvalue : skipValue n (s ++ (s' ++ rest)) = .ok (s' ++ rest) :=
        ih h (by omega) (stops_of_items h' rest)
      rw [Phrase.pass, skipItems, List.append_assoc, List.append_assoc,
        next_value h (.inl rfl) hlead, ok_bind]
      dsimp only
      rw [hvalue, ok_bind]
      exact ih h' (by omega) trivial
    | endMembers hg =>
      rw [Phrase.pass, skipMembers, List.append_assoc, List.singleton_append, nextMember_close hg]
      rfl
    | @member lead k g g' s s' first key t ms hlead hk hg hg' h h' =>
      have hlen := List.length_pos_iff.2 h.ne_nil
      have hlen' := List.length_pos_iff.2 h'.ne_nil
      simp only [List.length_append, List.length_cons] at hfuel
      have hvalue : skipValue n (g' ++ (s ++ (s' ++ rest))) = .ok (s' ++ rest) := by
        rw [skipValue_append hg']
        exact ih h (by omega) (stops_of_members h' rest)
      have hsplit : lead ++ quote :: (k ++ quote :: (g ++ colonMark :: (g' ++ (s ++ s')))) ++ rest =
          lead ++ quote :: (k ++ quote :: (g ++ colonMark :: (g' ++ (s ++ (s' ++ rest))))) := by
        simp
      rw [Phrase.pass, skipMembers, hsplit, nextMember_item hlead, ok_bind]
      dsimp only
      rw [skipText_append hk.passable, ok_bind, colon_of_blank hg, ok_bind, hvalue, ok_bind]
      exact ih h' (by omega) trivial

/-- What `skip` meets is in the grammar. -/
theorem skip_of_spells {s : Bytes} {t : Tree} (h : Spells s (.value t)) {g rest : Bytes}
    (hg : IsBlank g) (hrest : Stops rest) : skip (g ++ (s ++ rest)) = .ok rest := by
  have hfuel : s.length ≤ 2 * (g ++ (s ++ rest)).length + 1 := by
    simp only [List.length_append]
    omega
  rw [skip, skipValue_append hg]
  exact pass_of_spells h hfuel hrest

/-- What a reader that passes over a part of a text has met: a value, the rest of a list or the rest
of an object. -/
structure PassesOnly (n : Nat) : Prop where
  value : ∀ {s rest : Bytes}, skipValue n s = .ok rest →
    ∃ g x t, IsBlank g ∧ s = g ++ (x ++ rest) ∧ Spells x (.value t)
  items : ∀ {first : Bool} {s rest : Bytes}, skipItems n first s = .ok rest →
    ∃ x ts, s = x ++ rest ∧ Spells x (.items first ts)
  members : ∀ {first : Bool} {s rest : Bytes}, skipMembers n first s = .ok rest →
    ∃ x ms, s = x ++ rest ∧ Spells x (.members first ms)

/-- With one more unit of fuel it is a value that is passed over. -/
theorem PassesOnly.value_succ {n : Nat} (ih : PassesOnly n) {s rest : Bytes}
    (h : skipValue (n + 1) s = .ok rest) :
    ∃ g x t, IsBlank g ∧ s = g ++ (x ++ rest) ∧ Spells x (.value t) := by
  rw [skipValue] at h
  split at h
  · exact nomatch h
  next b u hskip =>
    obtain ⟨g, hg, rfl, -⟩ := eq_of_skipSpace hskip
    split at h
    -- the mark that the value starts with tells which reader has passed over it
    next hb =>
      obtain ⟨c, rfl, hc⟩ := passable_of_skipText h
      obtain ⟨t, ht⟩ := hc.exists_quoted
      exact ⟨g, _, _, hg, by simp [hb], .text ht⟩
    split at h
    next hb =>
      obtain ⟨x, ts, rfl, hx⟩ := ih.items h
      exact ⟨g, _, _, hg, by simp [hb], .list hx⟩
    split at h
    next hb =>
      obtain ⟨x, ms, rfl, hx⟩ := ih.members h
      exact ⟨g, _, _, hg, by simp [hb], .object hx⟩
    split at h
    next =>
      obtain ⟨⟨x, r⟩, hread, rfl⟩ := map_eq_ok.1 h
      obtain ⟨w, hw, hx⟩ := Numeral.spelled_of_read hread
      exact ⟨g, w, _, hg, by rw [hw], .number hx⟩
    split at h
    next w hw =>
      obtain rfl := expect_eq_ok.1 h
      obtain ⟨t, ht⟩ := spells_of_literalRest? hw
      exact ⟨g, _, t, hg, rfl, ht⟩
    · exact nomatch h

/-- With one more unit of fuel it is the rest of a list. -/
theorem PassesOnly.items_succ {n : Nat} (ih : PassesOnly n) {first : Bool} {s rest : Bytes}
    (h : skipItems (n + 1) first s = .ok rest) :
    ∃ x ts, s = x ++ rest ∧ Spells x (.items first ts) := by
  rw [skipItems] at h
  obtain ⟨next, hnext, h₁⟩ := bind_eq_ok.1 h
  cases next with
  | close t =>
    obtain rfl : t = rest := Except.ok.inj h₁
    obtain ⟨g, hg, rfl⟩ := eq_of_next_close hnext
    exact ⟨_, _, by simp, .endItems hg⟩
  | item t =>
    obtain ⟨r, hvalue, h₂⟩ := bind_eq_ok.1 h₁
    -- blanks that the value reader has skipped count as part of what stands in front
    obtain ⟨lead, -, -, hlead, rfl, -⟩ := eq_of_next_item hnext
    obtain ⟨g, x, t, hg, rfl, hx⟩ := ih.value hvalue
    obtain ⟨y, ts, rfl, hy⟩ := ih.items h₂
    exact ⟨_, _, by simp, .item (hlead.append_blank hg) hx hy⟩

/-- With one more unit of fuel it is the rest of an object. -/
theorem PassesOnly.members_succ {n : Nat} (ih : PassesOnly n) {first : Bool} {s rest : Bytes}
    (h : skipMembers (n + 1) first s = .ok rest) :
    ∃ x ms, s = x ++ rest ∧ Spells x (.members first ms) := by
  rw [skipMembers] at h
  obtain ⟨next, hnext, h₁⟩ := bind_eq_ok.1 h
  cases next with
  | close t =>
    obtain rfl : t = rest := Except.ok.inj h₁
    obtain ⟨g, hg, rfl⟩ := eq_of_nextMember_close hnext
    exact ⟨_, _, by simp, .endMembers hg⟩
  | item t =>
    obtain ⟨r₁, hkey, h₂⟩ := bind_eq_ok.1 h₁
    obtain ⟨r₂, hcolon, h₃⟩ := bind_eq_ok.1 h₂
    obtain ⟨r₃, hvalue, h₄⟩ := bind_eq_ok.1 h₃
    obtain ⟨lead, hlead, rfl⟩ := eq_of_nextMember_item hnext
    obtain ⟨k, rfl, hk⟩ := passable_of_skipText hkey
    obtain ⟨key, hquoted⟩ := hk.exists_quoted
    obtain ⟨g, hg, rfl⟩ := eq_of_colon hcolon
    obtain ⟨g', x, t, hg', rfl, hx⟩ := ih.value hvalue
    obtain ⟨y, ms, rfl, hy⟩ := ih.members h₄
    exact ⟨_, _, by simp, .member hlead hquoted hg hg' hx hy⟩

/-- Whatever the fuel, nothing is passed over that is not in the grammar. -/
theorem passesOnly (n : Nat) : PassesOnly n := by
  -- the three readers call each other, so they are taken together
  induction n with
  | zero => exact ⟨nofun, nofun, nofun⟩
  | succ n ih => exact ⟨ih.value_succ, ih.items_succ, ih.members_succ⟩

/-- What has been passed over is a value, with blanks before it. -/
theorem spells_of_skip {s rest : Bytes} (h : skip s = .ok rest) :
    ∃ g x t, IsBlank g ∧ s = g ++ (x ++ rest) ∧ Spells x (.value t) :=
  (passesOnly _).value h

/-! ## Octets say one thing -/

/-- A value ends in one place only. -/
theorem Spells.value_split {x x' y y' : Bytes} {t t' : Tree} (h : Spells x (.value t))
    (h' : Spells x' (.value t')) (hy : Stops y) (hy' : Stops y') (heq : x ++ y = x' ++ y') :
    x = x' ∧ y = y' := by
  -- `skip` stops behind the value, and it stops in one place
  have hskip := skip_of_spells h .nil hy
  have hskip' := skip_of_spells h' .nil hy'
  rw [← heq, hskip, Except.ok.injEq] at hskip'
  subst hskip'
  exact ⟨List.append_cancel_right heq, rfl⟩

/-- Octets between quotation marks end at one place only, and say one thing. -/
theorem Quoted.split {c c' y y' : Bytes} {k k' : Option String} (h : Quoted c k)
    (h' : Quoted c' k') (heq : c ++ quote :: y = c' ++ quote :: y') : k = k' ∧ y = y' := by
  -- as for a value, with `skipText`
  have hskip := skipText_append h.passable y
  rw [heq, skipText_append h'.passable y', Except.ok.injEq] at hskip
  subst hskip
  rw [List.append_cancel_right heq] at h
  exact ⟨h.unique h', rfl⟩

/-- A value that starts with a quotation mark is a text. -/
theorem Spells.eq_text {u : Bytes} {t : Tree} (h : Spells (quote :: u) (.value t)) :
    ∃ c k, u = c ++ [quote] ∧ Quoted c k ∧ t = .text k := by
  generalize hs : quote :: u = s at h
  -- all other values start with another octet
  cases h with
  | number h =>
    obtain ⟨b, v, rfl, hb⟩ := h.head
    exact absurd (List.cons.inj hs).1.symm (startsNumber_cases hb).1
  | text h => exact ⟨_, _, (List.cons.inj hs).2, h, rfl⟩
  | _ => exact absurd (List.cons.inj hs).1 (by decide)

/-- A value that starts with an opening bracket is a list. -/
theorem Spells.eq_list {u : Bytes} {t : Tree} (h : Spells (openList :: u) (.value t)) :
    ∃ ts, Spells u (.items true ts) ∧ t = .list ts := by
  generalize hs : openList :: u = s at h
  cases h with
  | number h =>
    obtain ⟨b, v, rfl, hb⟩ := h.head
    exact absurd (List.cons.inj hs).1.symm (startsNumber_cases hb).2.1
  | list h => exact ⟨_, (List.cons.inj hs).2 ▸ h, rfl⟩
  | _ => exact absurd (List.cons.inj hs).1 (by decide)

/-- A value that starts with an opening brace is an object. -/
theorem Spells.eq_object {u : Bytes} {t : Tree} (h : Spells (openObject :: u) (.value t)) :
    ∃ ms, Spells u (.members true ms) ∧ t = .object ms := by
  generalize hs : openObject :: u = s at h
  cases h with
  | number h =>
    obtain ⟨b, v, rfl, hb⟩ := h.head
    exact absurd (List.cons.inj hs).1.symm (startsNumber_cases hb).2.2.1
  | object h => exact ⟨_, (List.cons.inj hs).2 ▸ h, rfl⟩
  | _ => exact absurd (List.cons.inj hs).1 (by decide)

/-- What is spelled as a numeral is that numeral and nothing else. -/
theorem Spells.eq_number {x : Numeral} {s : Bytes} {t : Tree} (hx : x.Spelled s)
    (h : Spells s (.value t)) : t = .number x := by
  obtain ⟨b, u, rfl, hb⟩ := hx.head
  have hne {c : UInt8} (hc : startsNumber c = false) : b ≠ c := by
    rintro rfl
    simp [hb] at hc
  generalize hs : b :: u = s at h hx
  cases h with
  -- two numerals with this spelling would both be what `Numeral.read` gives
  | number h =>
    have hread := Numeral.read_of_spelled hx stops_nil .ended
    rw [Numeral.read_of_spelled h stops_nil .ended] at hread
    rw [(Prod.mk.inj (Except.ok.inj hread)).1]
  | _ => exact absurd (List.cons.inj hs).1 (hne (by decide))

/-- The literals and what they say. -/
def IsLiteral (w : Bytes) (t : Tree) : Prop :=
  w = [0x6e, 0x75, 0x6c, 0x6c] ∧ t = .null ∨ w = [0x74, 0x72, 0x75, 0x65] ∧ t = .bool true ∨
    w = [0x66, 0x61, 0x6c, 0x73, 0x65] ∧ t = .bool false

/-- What is spelled as a literal is that literal and nothing else. -/
theorem Spells.eq_literal {w : Bytes} {t t' : Tree} (hw : IsLiteral w t)
    (h : Spells w (.value t')) : t = t' := by
  generalize hs : w = s at h
  obtain ⟨rfl, rfl⟩ | ⟨rfl, rfl⟩ | ⟨rfl, rfl⟩ := hw
  all_goals
    -- the first letters of the literals differ, and none starts a numeral
    cases h with
    | number h =>
      obtain ⟨b, u, rfl, hb⟩ := h.head
      rw [← (List.cons.inj hs).1] at hb
      exact absurd hb (by decide)
    | nullLiteral => first | rfl | exact absurd hs (by decide)
    | trueLiteral => first | rfl | exact absurd hs (by decide)
    | falseLiteral => first | rfl | exact absurd hs (by decide)
    | _ => exact absurd (List.cons.inj hs).1 (by decide)

/-- An item of a list ends in one place only. -/
theorem Spells.item_split {lead lead' x x' y y' : Bytes} {first : Bool} {t t' : Tree}
    {ts ts' : List Tree} (hlead : Lead first lead) (hlead' : Lead first lead')
    (hx : Spells x (.value t)) (hx' : Spells x' (.value t')) (hy : Spells y (.items false ts))
    (hy' : Spells y' (.items false ts')) (heq : lead ++ (x ++ y) = lead' ++ (x' ++ y')) :
    x = x' ∧ y = y' := by
  have hnext := next_value hx (.inl rfl) hlead y
  rw [heq, next_value hx' (.inl rfl) hlead', Except.ok.injEq, Next.item.injEq] at hnext
  exact hx.value_split hx' (stops_items hy) (stops_items hy') hnext.symm

/-- A member of an object has one key, and its value ends in one place only. -/
theorem Spells.member_split {lead lead' k k' g g₁ g' g₁' x x' y y' : Bytes} {first : Bool}
    {key key' : Option String} {t t' : Tree} {ms ms' : List (Option String × Tree)}
    (hlead : Lead first lead) (hlead' : Lead first lead') (hk : Quoted k key)
    (hk' : Quoted k' key') (hg : IsBlank g) (hg' : IsBlank g') (hg₁ : IsBlank g₁)
    (hg₁' : IsBlank g₁') (hx : Spells x (.value t)) (hx' : Spells x' (.value t'))
    (hy : Spells y (.members false ms)) (hy' : Spells y' (.members false ms'))
    (heq : lead ++ quote :: (k ++ quote :: (g ++ colonMark :: (g₁ ++ (x ++ y)))) =
      lead' ++ quote :: (k' ++ quote :: (g' ++ colonMark :: (g₁' ++ (x' ++ y'))))) :
    key = key' ∧ x = x' ∧ y = y' := by
  have hnext := nextMember_item hlead (k ++ quote :: (g ++ colonMark :: (g₁ ++ (x ++ y))))
  rw [heq, nextMember_item hlead', Except.ok.injEq, Next.item.injEq] at hnext
  -- the key ends at its quotation mark, and the blanks around the colon end at what follows
  obtain ⟨hkey, hcolon⟩ := hk.split hk' hnext.symm
  have hvalue := colon_of_blank hg (g₁ ++ (x ++ y))
  rw [hcolon, colon_of_blank hg', Except.ok.injEq] at hvalue
  have hspace := skipSpace_value hx hg₁ y
  rw [← hvalue, skipSpace_value hx' hg₁'] at hspace
  exact ⟨hkey, hx.value_split hx' (stops_members hy) (stops_members hy') hspace.symm⟩

/-- Two readings of the same octets do not contradict each other. -/
def Phrase.Agree : Phrase → Phrase → Prop
  | value t, value t' => t = t'
  | items first ts, items first' ts' => first = first' → ts = ts'
  | members first ms, members first' ms' => first = first' → ms = ms'
  | _, _ => True

/-- What is left of a list is its end or a further item. -/
theorem Spells.items_cases {s : Bytes} {first : Bool} {ts : List Tree}
    (h : Spells s (.items first ts)) :
    (∃ g, IsBlank g ∧ s = g ++ [closeList] ∧ ts = []) ∨
      ∃ lead x y t ts', Lead first lead ∧ s = lead ++ (x ++ y) ∧ Spells x (.value t) ∧
        Spells y (.items false ts') ∧ ts = t :: ts' := by
  cases h with
  | endItems hg => exact .inl ⟨_, hg, rfl, rfl⟩
  | item hlead h h' => exact .inr ⟨_, _, _, _, _, hlead, rfl, h, h', rfl⟩

/-- What is left of an object is its end or a further member. -/
theorem Spells.members_cases {s : Bytes} {first : Bool} {ms : List (Option String × Tree)}
    (h : Spells s (.members first ms)) :
    (∃ g, IsBlank g ∧ s = g ++ [closeObject] ∧ ms = []) ∨
      ∃ lead k g g' x y key t ms', Lead first lead ∧ Quoted k key ∧ IsBlank g ∧ IsBlank g' ∧
        s = lead ++ quote :: (k ++ quote :: (g ++ colonMark :: (g' ++ (x ++ y)))) ∧
        Spells x (.value t) ∧ Spells y (.members false ms') ∧ ms = (key, t) :: ms' := by
  cases h with
  | endMembers hg => exact .inl ⟨_, hg, rfl, rfl⟩
  | member hlead hk hg hg' h h' =>
    exact .inr ⟨_, _, _, _, _, _, _, _, _, hlead, hk, hg, hg', rfl, h, h', rfl⟩

/-- The same octets say the same, as a value, as the rest of a list or as that of an object. -/
theorem Spells.agree {s : Bytes} {p p' : Phrase} (h : Spells s p) (h' : Spells s p') :
    p.Agree p' := by
  -- the first octet tells the kind of a value, and what `next` finds tells an item from the end
  induction h generalizing p' with
  | nullLiteral =>
    cases p' with
    | value t' => exact eq_literal (.inl ⟨rfl, rfl⟩) h'
    | _ => trivial
  | trueLiteral =>
    cases p' with
    | value t' => exact eq_literal (.inr (.inl ⟨rfl, rfl⟩)) h'
    | _ => trivial
  | falseLiteral =>
    cases p' with
    | value t' => exact eq_literal (.inr (.inr ⟨rfl, rfl⟩)) h'
    | _ => trivial
  | number hx =>
    cases p' with
    | value t' => exact (eq_number hx h').symm
    | _ => trivial
  | text hc =>
    cases p' with
    | value t' =>
      obtain ⟨c, k, hsplit, hk, rfl⟩ := h'.eq_text
      exact congrArg Tree.text (hc.unique (List.append_cancel_right hsplit ▸ hk))
    | _ => trivial
  | list _ ih =>
    cases p' with
    | value t' =>
      obtain ⟨ts, hts, rfl⟩ := h'.eq_list
      exact congrArg Tree.list (ih hts rfl)
    | _ => trivial
  | object _ ih =>
    cases p' with
    | value t' =>
      obtain ⟨ms, hms, rfl⟩ := h'.eq_object
      exact congrArg Tree.object (ih hms rfl)
    | _ => trivial
  | @endItems g first hg =>
    cases p' with
    | items first' ts' =>
      rintro rfl
      -- no closing bracket is found as an item
      have hnext := next_close (.inl rfl) hg first []
      obtain ⟨-, -, -, rfl⟩ | ⟨lead, x, y, t, ts, hlead, hs, hx, -⟩ := h'.items_cases
      · rfl
      · rw [hs, next_value hx (.inl rfl) hlead] at hnext
        exact nomatch hnext
    | _ => trivial
  | @item lead x y first t ts hlead hx hy ihx ihy =>
    cases p' with
    | items first' ts' =>
      rintro rfl
      obtain ⟨g', hg', hs, -⟩ | ⟨lead', x', y', t', ts', hlead', hs, hx', hy', rfl⟩ :=
        h'.items_cases
      · have hnext := next_value hx (.inl rfl) hlead y
        rw [hs, next_close (.inl rfl) hg'] at hnext
        exact nomatch hnext
      · obtain ⟨rfl, rfl⟩ := item_split hlead hlead' hx hx' hy hy' hs
        rw [show t = t' from ihx hx', show ts = ts' from ihy hy' rfl]
    | _ => trivial
  | @endMembers g first hg =>
    cases p' with
    | members first' ms' =>
      rintro rfl
      have hnext := nextMember_close hg first []
      obtain ⟨-, -, -, rfl⟩ | ⟨lead, k, g, g', x, y, key, t, ms, hlead, -, -, -, hs, -⟩ :=
        h'.members_cases
      · rfl
      · rw [hs, nextMember_item hlead] at hnext
        exact nomatch hnext
    | _ => trivial
  | @member lead k g g' x y first key t ms hlead hk hg hg' hx hy ihx ihy =>
    cases p' with
    | members first' ms' =>
      rintro rfl
      obtain ⟨g₁, hg₁, hs, -⟩ |
        ⟨lead₁, k₁, g₁, g₁', x₁, y₁, key₁, t₁, ms₁, hlead₁, hk₁, hg₁, hg₁', hs, hx₁, hy₁, rfl⟩ :=
        h'.members_cases
      · have hnext := nextMember_item hlead (k ++ quote :: (g ++ colonMark :: (g' ++ (x ++ y))))
        rw [hs, nextMember_close hg₁] at hnext
        exact nomatch hnext
      · obtain ⟨rfl, rfl, rfl⟩ :=
          member_split hlead hlead₁ hk hk₁ hg hg₁ hg' hg₁' hx hx₁ hy hy₁ hs
        rw [show t = t₁ from ihx hx₁, show ms = ms₁ from ihy hy₁ rfl]
    | _ => trivial

/-- Octets say one tree at most. -/
theorem Spells.unique {s : Bytes} {t t' : Tree} (h : Spells s (.value t))
    (h' : Spells s (.value t')) : t = t' :=
  h.agree h'

/-- A whole text says one tree at most. -/
theorem Says.unique {s : Bytes} {t t' : Tree} (h : Says s t) (h' : Says s t') : t = t' := by
  obtain ⟨g, x, r, hg, hr, rfl, hx⟩ := h
  obtain ⟨g', x', r', hg', hr', hs, hx'⟩ := h'
  have hspace := skipSpace_value hx hg r
  rw [hs, skipSpace_value hx' hg'] at hspace
  obtain ⟨rfl, -⟩ := hx'.value_split hx (stops_blank hr') (stops_blank hr) hspace
  exact hx.unique hx'

end LibraryPlayer.Json
