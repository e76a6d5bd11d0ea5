import LibraryPlayer.Proofs.Json.Skipping

/-!
# Octets that are cut short

What is left of the spelling of something when its end is cut off is no spelling, and the readers
say so: they report that the octets end, and nothing else.  The one exception is a cut inside a
numeral (`CutsNumeral`), where the digits before it may be a numeral themselves or no numeral at
all.

Each lemma looks at octets `p` in front of a cut and `q` behind it; `p ++ q` is in the grammar.  In
a sequence of parts the cut falls inside the first one or behind it (`cut_append`), and a part in
front of the cut is read as it always is.
-/

namespace LibraryPlayer.Json

/-- A cut in two parts falls inside the first or is in the second. -/
theorem cut_append {u v p q : Bytes} (h : u ++ v = p ++ q) :
    (∃ r, r ≠ [] ∧ u = p ++ r ∧ q = r ++ v) ∨ ∃ r, p = u ++ r ∧ v = r ++ q := by
  obtain ⟨r, hp, hv⟩ | ⟨r, hu, hq⟩ := List.append_eq_append_iff.1 h
  · exact .inr ⟨r, hp, hv⟩
  -- a cut between the two parts counts as one in the second
  · by_cases hr : r = []
    · subst hr
      exact .inr ⟨[], by simpa using hu.symm, hq.symm⟩
    · exact .inl ⟨r, hr, hu, hq⟩

/-- A cut falls in front of a mark or behind it. -/
theorem cut_mark {u v p q : Bytes} {b : UInt8} (h : u ++ b :: v = p ++ q) :
    (∃ r, u = p ++ r) ∨ ∃ r, p = u ++ b :: r ∧ v = r ++ q := by
  obtain ⟨r, -, hu, -⟩ | ⟨r, rfl, hr⟩ := cut_append h
  · exact .inl ⟨r, hu⟩
  -- right before the mark there is nothing of the second part in front of the cut
  · cases r with
    | nil => exact .inl ⟨[], by simp⟩
    | cons c r =>
      obtain ⟨rfl, hv⟩ := List.cons.inj hr
      exact .inr ⟨r, rfl, hv⟩

/-- If there is something behind the cut, it falls in front of a mark at the end. -/
theorem cut_concat {u p q : Bytes} {b : UInt8} (h : u ++ [b] = p ++ q) (hq : q ≠ []) :
    ∃ r, u = p ++ r := by
  obtain hu | ⟨r, -, hr⟩ := cut_mark h
  · exact hu
  · exact absurd (List.append_eq_nil_iff.1 hr.symm).2 hq

/-! ## Punctuation -/

/-- Both sides of a cut in blanks are blanks. -/
theorem IsBlank.of_append {p q : Bytes} (h : IsBlank (p ++ q)) : IsBlank p ∧ IsBlank q :=
  ⟨fun b hb => h b (List.mem_append_left q hb), fun b hb => h b (List.mem_append_right p hb)⟩

/-- Of fixed octets that are cut off the rest is missed. -/
theorem expect_cut {w p q : Bytes} (h : w = p ++ q) (hq : q ≠ []) : expect w p = .error .ended := by
  -- octet by octet, on those in front of the cut
  induction p generalizing w with
  | nil =>
    subst h
    obtain ⟨b, u, rfl⟩ := List.exists_cons_of_ne_nil hq
    rfl
  | cons b p ih =>
    subst h
    rw [List.cons_append, expect, if_pos rfl, ih rfl]

/-- After blanks a colon is missed. -/
theorem colon_blank {g : Bytes} (hg : IsBlank g) : colon g = .error .ended := by
  rw [colon, skipSpace_blank hg]

/-- After blanks the end of a list is missed. -/
theorem endList_blank {g : Bytes} (hg : IsBlank g) : endList g = .error .ended := by
  rw [endList, skipSpace_blank hg]

/-- After blanks an item or the end is missed. -/
theorem next_blank {g : Bytes} (hg : IsBlank g) (closing : UInt8) (first : Bool) :
    next closing first g = .error .ended := by
  rw [next, skipSpace_blank hg]

/-- After blanks a member or the end is missed. -/
theorem nextMember_blank {g : Bytes} (hg : IsBlank g) (first : Bool) :
    nextMember first g = .error .ended := by
  rw [nextMember, next_blank hg]
  rfl

/-- The octets end in front of an item or right before it. -/
theorem next_cut {closing : UInt8} (hclosing : IsClosing closing) {first : Bool} {lead p q : Bytes}
    (hlead : Lead first lead) (h : lead = p ++ q) : next closing first p = .error .ended := by
  cases hlead with
  | first hg =>
    subst h
    exact next_blank hg.of_append.1 closing true
  | @later g g' hg hg' =>
    -- a comma at the end is no fault yet: an item may follow
    obtain ⟨r, rfl⟩ | ⟨r, rfl, rfl⟩ := cut_mark h
    · exact next_blank hg.of_append.1 closing false
    · rw [next, skipSpace_append hg, skipSpace_cons (by decide)]
      simp [hclosing.ne_comma, skipSpace_blank hg'.of_append.1]

/-- The octets end in front of a member or right before it. -/
theorem nextMember_cut {first : Bool} {lead p q : Bytes} (hlead : Lead first lead)
    (h : lead = p ++ q) : nextMember first p = .error .ended := by
  rw [nextMember, next_cut (.inr rfl) hlead h]
  rfl

/-! ## Texts -/

/-- Fewer than four hexadecimal digits are too few. -/
theorem readHex_cut {u p q : Bytes} {n : Nat} (hu : Hex u n) (h : u = p ++ q) (hq : q ≠ []) :
    readHex p = .error .ended := by
  -- something of the four digits is behind the cut
  have hlen : p.length < 4 := by
    have hfour : u.length = 4 := by
      cases hu
      rfl
    have hpos := List.length_pos_iff.2 hq
    rw [h, List.length_append] at hfour
    omega
  match p, hlen with
  | [], _ => rfl
  | [_], _ => rfl
  | [_, _], _ => rfl
  | [_, _, _], _ => rfl

/-- An escape by number that is cut off is missed to its end, in either half of a pair. -/
theorem readUnit_cut {e u p q : Bytes} (he : Escape (0x75 :: e) u) (h : e = p ++ q) (hq : q ≠ []) :
    readUnit p = .error .ended := by
  cases he with
  | short hb =>
    rw [escaped?_unit] at hb
    exact nomatch hb
  | unit hu => rw [readUnit, readHex_cut hu h hq, error_bind]
  | @pair u v n m hu hv hhigh hlow =>
    -- the cut is in the first half, in the backslash and letter between the halves, or in the
    -- second half
    obtain ⟨r, hr, hcut, -⟩ | ⟨r, rfl, hcut⟩ := cut_append h
    · rw [readUnit, readHex_cut hu hcut hr, error_bind]
    · have hlow' := isLowSurrogate_of_high hhigh
      obtain ⟨r', hr', hcut', -⟩ | ⟨r', rfl, hcut'⟩ := cut_append (u := [backslash, 0x75]) hcut
      · simp [readUnit, readHex_append hu, hlow', hhigh, expect_cut hcut' hr']
      · have hexpect : expect [backslash, 0x75] (backslash :: 0x75 :: r') = .ok r' :=
          expect_eq_ok.2 rfl
        simp [readUnit, readHex_append hu, hlow', hhigh, hexpect, readHex_cut hv hcut' hq]

/-- An escape that is cut off is missed to its end. -/
theorem readEscape_cut {e u p q : Bytes} (he : Escape e u) (h : e = p ++ q) (hq : q ≠ []) :
    readEscape p = .error .ended := by
  cases p with
  | nil => rfl
  | cons b p =>
    cases he with
    | short => simp_all
    | unit hu hlow hhigh =>
      obtain ⟨rfl, hcut⟩ := List.cons.inj h
      exact readUnit_cut (.unit hu hlow hhigh) hcut hq
    | pair hu hv hhigh hlow =>
      obtain ⟨rfl, hcut⟩ := List.cons.inj h
      exact readUnit_cut (.pair hu hv hhigh hlow) hcut hq

/-- Without the closing quotation mark the octets end inside the text. -/
theorem readContent_cut {c o p q : Bytes} (hc : Content c o) (h : c = p ++ q) (fuel : Nat) :
    readContent fuel p = .error .ended := by
  -- as the reader goes on, through the octets in front of the cut
  induction fuel generalizing c o p with
  | zero => rfl
  | succ fuel ih =>
    cases p with
    | nil => rfl
    | cons b p =>
      have hne : backslash ≠ quote := by decide
      cases hc with
      | nil => exact nomatch h
      | plain hb hs =>
        obtain ⟨rfl, hcut⟩ := List.cons.inj h
        simp [readContent, hb.ne_quote, hb.ne_backslash, hb.printable, ih hs hcut]
      | escape he hs =>
        obtain ⟨rfl, hcut⟩ := List.cons.inj h
        -- the cut is inside this escape or behind it
        obtain ⟨r, hr, he', -⟩ | ⟨r, rfl, hs'⟩ := cut_append hcut
        · simp [readContent, hne, readEscape_cut he he' hr]
        · simp [readContent, hne, readEscape_append he, ih hs hs']

/-- A text has no end without its closing quotation mark. -/
theorem readText_cut {c o p q : Bytes} (hc : Content c o) (h : c = p ++ q) :
    readText p = .error .ended := by
  rw [readText, readContent_cut hc h, error_bind]

/-- The same holds of a text that is passed over. -/
theorem skipContent_cut {c p q : Bytes} (hc : Passable c) (h : c = p ++ q) (fuel : Nat) :
    skipContent fuel p = .error .ended := by
  -- as in `readContent_cut`
  induction fuel generalizing c p with
  | zero => rfl
  | succ fuel ih =>
    cases p with
    | nil => rfl
    | cons b p =>
      have hne : backslash ≠ quote := by decide
      cases hc with
      | nil => exact nomatch h
      | plain hb hs =>
        obtain ⟨rfl, hcut⟩ := List.cons.inj h
        simp [skipContent, hb.ne_quote, hb.ne_backslash, hb.printable, ih hs hcut]
      | @short e s he hs =>
        obtain ⟨rfl, hcut⟩ := List.cons.inj h
        have hunit : e ≠ 0x75 := by
          rintro rfl
          simp [escaped?_unit] at he
        cases p with
        | nil => simp [skipContent, hne, skipEscape]
        | cons b p =>
          obtain ⟨rfl, hs'⟩ := List.cons.inj hcut
          simp [skipContent, hne, skipEscape, hunit, he, ih hs hs']
      | @unit u s n hu hs =>
        obtain ⟨rfl, hcut⟩ := List.cons.inj h
        cases p with
        | nil => simp [skipContent, hne, skipEscape]
        | cons b p =>
          obtain ⟨rfl, hcut'⟩ := List.cons.inj hcut
          obtain ⟨r, hr, hu', -⟩ | ⟨r, rfl, hs'⟩ := cut_append hcut'
          · simp [skipContent, hne, skipEscape, readHex_cut hu hu' hr, Except.map]
          · simp [skipContent, hne, skipEscape, readHex_append hu, ih hs hs', Except.map]

/-- A text that is passed over has no end without its closing quotation mark. -/
theorem skipText_cut {c p q : Bytes} (hc : Passable c) (h : c = p ++ q) :
    skipText p = .error .ended :=
  skipContent_cut hc h p.length

/-! ## Values -/

/-- The cut between `p` and `q` falls inside a numeral of what they spell together. -/
inductive CutsNumeral : Bytes → Bytes → Phrase → Prop where
  | number {p q : Bytes} {x : Numeral} (h : x.Spelled (p ++ q)) (hp : p ≠ []) (hq : q ≠ []) :
    CutsNumeral p q (.value (.number x))
  | list {p q : Bytes} {ts : List Tree} (h : CutsNumeral p q (.items true ts)) :
    CutsNumeral (openList :: p) q (.value (.list ts))
  | object {p q : Bytes} {ms : List (Option String × Tree)}
    (h : CutsNumeral p q (.members true ms)) :
    CutsNumeral (openObject :: p) q (.value (.object ms))
  | item {lead p q s : Bytes} {first : Bool} {t : Tree} {ts : List Tree} (hlead : Lead first lead)
    (h : CutsNumeral p q (.value t)) (h' : Spells s (.items false ts)) :
    CutsNumeral (lead ++ p) (q ++ s) (.items first (t :: ts))
  | laterItem {lead p q s : Bytes} {first : Bool} {t : Tree} {ts : List Tree}
    (hlead : Lead first lead) (h : Spells s (.value t)) (h' : CutsNumeral p q (.items false ts)) :
    CutsNumeral (lead ++ (s ++ p)) q (.items first (t :: ts))
  | member {lead k g g' p q s : Bytes} {first : Bool} {key : Option String} {t : Tree}
    {ms : List (Option String × Tree)} (hlead : Lead first lead) (hk : Quoted k key)
    (hg : IsBlank g) (hg' : IsBlank g') (h : CutsNumeral p q (.value t))
    (h' : Spells s (.members false ms)) :
    CutsNumeral (lead ++ quote :: (k ++ quote :: (g ++ colonMark :: (g' ++ p)))) (q ++ s)
      (.members first ((key, t) :: ms))
  | laterMember {lead k g g' p q s : Bytes} {first : Bool} {key : Option String} {t : Tree}
    {ms : List (Option String × Tree)} (hlead : Lead first lead) (hk : Quoted k key)
    (hg : IsBlank g) (hg' : IsBlank g') (h : Spells s (.value t))
    (h' : CutsNumeral p q (.members false ms)) :
    CutsNumeral (lead ++ quote :: (k ++ quote :: (g ++ colonMark :: (g' ++ (s ++ p))))) q
      (.members first ((key, t) :: ms))

/-- Where a numeral is over, it is over in front of a first part of the octets. -/
theorem Stops.of_append {p q : Bytes} (h : Stops (p ++ q)) : Stops p := by
  cases p with
  | nil => exact stops_nil
  | cons b p => exact fun c hc => h c hc

/-- A numeral is over before what is left of the items after it. -/
theorem stops_of_items_cut {s p q : Bytes} {ts : List Tree} (h : Spells s (.items false ts))
    (hs : s = p ++ q) : Stops p :=
  Stops.of_append (hs ▸ stops_items h)

/-- A numeral is over before what is left of the members after it. -/
theorem stops_of_members_cut {s p q : Bytes} {ms : List (Option String × Tree)}
    (h : Spells s (.members false ms)) (hs : s = p ++ q) : Stops p :=
  Stops.of_append (hs ▸ stops_members h)

/-- A cut in an item and what follows it falls in front of the item, inside it or behind it. -/
theorem item_cut {lead s s' p q : Bytes} (h : lead ++ (s ++ s') = p ++ q) :
    (∃ r, lead = p ++ r) ∨
    (∃ r r', r ≠ [] ∧ r' ≠ [] ∧ p = lead ++ r ∧ s = r ++ r' ∧ q = r' ++ s') ∨
    ∃ r, p = lead ++ (s ++ r) ∧ s' = r ++ q := by
  obtain ⟨r, -, hlead, -⟩ | ⟨r, rfl, hrest⟩ := cut_append h
  · exact .inl ⟨r, hlead⟩
  · obtain ⟨r', hr', hs, hq⟩ | ⟨r', rfl, hs'⟩ := cut_append hrest
    -- a cut between the lead and the item counts as one in the lead
    · by_cases hr : r = []
      · exact .inl ⟨[], by simp [hr]⟩
      · exact .inr (.inl ⟨r, r', hr, hr', rfl, hs, hq⟩)
    · exact .inr (.inr ⟨r', rfl, hs'⟩)

/-- A cut in a member and what follows it falls in front of it, inside its key or behind its key. -/
theorem member_cut {lead k s p q : Bytes} (h : lead ++ quote :: (k ++ quote :: s) = p ++ q) :
    (∃ r, lead = p ++ r) ∨ (∃ r r', p = lead ++ quote :: r ∧ k = r ++ r') ∨
    ∃ r, p = lead ++ quote :: (k ++ quote :: r) ∧ s = r ++ q := by
  obtain hlead | ⟨r, rfl, hrest⟩ := cut_mark h
  · exact .inl hlead
  · obtain ⟨r', hk⟩ | ⟨r', rfl, hs⟩ := cut_mark hrest
    · exact .inr (.inl ⟨r, r', rfl, hk⟩)
    · exact .inr (.inr ⟨r', rfl, hs⟩)

/-- The first part of a value starts one. -/
theorem next_value_cut {s r r' : Bytes} {t : Tree} (h : Spells s (.value t)) (hs : s = r ++ r')
    (hr : r ≠ []) {closing : UInt8} (hclosing : IsClosing closing) {first : Bool} {lead : Bytes}
    (hlead : Lead first lead) : next closing first (lead ++ r) = .ok (.item r) := by
  obtain ⟨b, u, rfl, hb⟩ := h.head
  -- one octet of the value is enough to tell that an item follows
  obtain ⟨c, r, rfl⟩ := List.exists_cons_of_ne_nil hr
  obtain ⟨rfl, -⟩ := List.cons.inj hs
  exact next_item hclosing hlead hb.not_space (hb.ne_closing hclosing) r

/-- A cut at an item of a list: either none is met, or it is cut off, or the cut is behind it. -/
theorem item_bind_cut {α : Type} {closing : UInt8} (hclosing : IsClosing closing) {first : Bool}
    {lead x y p q : Bytes} {t : Tree} (hlead : Lead first lead) (hx : Spells x (.value t))
    (hs : lead ++ (x ++ y) = p ++ q) {f : Next → Except Fault α}
    (hinside : ∀ r r', p = lead ++ r → x = r ++ r' → q = r' ++ y → r' ≠ [] →
      f (.item r) = .error .ended)
    (hbehind : ∀ r, p = lead ++ (x ++ r) → y = r ++ q → f (.item (x ++ r)) = .error .ended) :
    next closing first p >>= f = .error .ended := by
  -- the cut is in front of the item, inside it or behind it
  obtain ⟨r, hr⟩ | ⟨r, r', hr, hr', rfl, hx', hq⟩ | ⟨r, rfl, hy⟩ := item_cut hs
  · rw [next_cut hclosing hlead hr, error_bind]
  · rw [next_value_cut hx hx' hr hclosing hlead, ok_bind, hinside r r' rfl hx' hq hr']
  · rw [next_value hx hclosing hlead, ok_bind, hbehind r rfl hy]

/-- A literal that is cut off is missed to its end. -/
theorem skipValue_literal_cut {w p q : Bytes} {t : Tree} (hw : IsLiteral w t) (h : w = p ++ q)
    (hq : q ≠ []) (n : Nat) : skipValue (n + 1) p = .error .ended := by
  cases p with
  | nil => rfl
  | cons b p =>
    obtain ⟨rfl, -⟩ | ⟨rfl, -⟩ | ⟨rfl, -⟩ := hw
    all_goals
      obtain ⟨rfl, hcut⟩ := List.cons.inj h
      rw [skipValue, skipSpace_cons (by decide)]
      exact expect_cut hcut hq

/-- Fuel enough for a part of a text, when only `p` is left of it. -/
def Phrase.fuelFor (p : Bytes) : Phrase → Nat
  | value _ => 2 * p.length + 1
  | _ => 2 * p.length + 2

/-- With this much fuel, passing over something that is cut off reports that the octets end. -/
def MissesEnd (n : Nat) : Prop :=
  ∀ {s p q : Bytes} {phrase : Phrase}, Spells s phrase → s = p ++ q → q ≠ [] →
    ¬CutsNumeral p q phrase → phrase.fuelFor p ≤ n → phrase.pass n p = .error .ended

/-- After blanks a value is missed. -/
theorem skipValue_blank {g : Bytes} (hg : IsBlank g) (n : Nat) :
    skipValue n g = .error .ended := by
  cases n with
  | zero => rfl
  | succ n => rw [skipValue, skipSpace_blank hg]

/-- With one more unit of fuel a value that is cut off is missed to its end. -/
theorem MissesEnd.value_succ {n : Nat} (ih : MissesEnd n) {s p q : Bytes} {t : Tree}
    (h : Spells s (.value t)) (hs : s = p ++ q) (hq : q ≠ []) (hnum : ¬CutsNumeral p q (.value t))
    (hfuel : 2 * p.length ≤ n) : skipValue (n + 1) p = .error .ended := by
  -- by the first octet, which tells the kind of the value; without one there is nothing
  cases p with
  | nil => rfl
  | cons b p =>
    rw [List.length_cons] at hfuel
    cases h with
    | nullLiteral => exact skipValue_literal_cut (.inl ⟨rfl, rfl⟩) hs hq n
    | trueLiteral => exact skipValue_literal_cut (.inr (.inl ⟨rfl, rfl⟩)) hs hq n
    | falseLiteral => exact skipValue_literal_cut (.inr (.inr ⟨rfl, rfl⟩)) hs hq n
    -- a numeral with octets on both sides of the cut is what is excluded
    | number h => exact absurd (.number (hs ▸ h) (List.cons_ne_nil b p) hq) hnum
    | text h =>
      obtain ⟨rfl, hcut⟩ := List.cons.inj hs
      obtain ⟨r, hr⟩ := cut_concat hcut hq
      rw [skipValue_quote, skipText_cut h.passable hr]
    | list h =>
      obtain ⟨rfl, hcut⟩ := List.cons.inj hs
      rw [skipValue_list]
      exact ih h hcut hq (fun hcuts => hnum (.list hcuts)) (by simp only [Phrase.fuelFor]; omega)
    | object h =>
      obtain ⟨rfl, hcut⟩ := List.cons.inj hs
      rw [skipValue_object]
      exact ih h hcut hq (fun hcuts => hnum (.object hcuts)) (by simp only [Phrase.fuelFor]; omega)

/-- With one more unit of fuel so is the rest of a list. -/
theorem MissesEnd.items_succ {n : Nat} (ih : MissesEnd n) {s p q : Bytes} {first : Bool}
    {ts : List Tree} (h : Spells s (.items first ts)) (hs : s = p ++ q) (hq : q ≠ [])
    (hnum : ¬CutsNumeral p q (.items first ts)) (hfuel : 2 * p.length + 1 ≤ n) :
    skipItems (n + 1) first p = .error .ended := by
  rw [skipItems]
  cases h with
  | endItems hg =>
    obtain ⟨r, rfl⟩ := cut_concat hs hq
    rw [next_blank hg.of_append.1, error_bind]
  | @item lead x y _ t ts hlead hx hy =>
    refine item_bind_cut (.inl rfl) hlead hx hs ?_ ?_
    · rintro r r' rfl hx' rfl hr'
      rw [List.length_append] at hfuel
      have hvalue : skipValue n r = .error .ended :=
        ih hx hx' hr' (fun hcuts => hnum (.item hlead hcuts hy))
          (by simp only [Phrase.fuelFor]; omega)
      dsimp only
      rw [hvalue, error_bind]
    · rintro r rfl hy'
      rw [List.length_append, List.length_append] at hfuel
      have hlen := List.length_pos_iff.2 hx.ne_nil
      -- an item in front of the cut is passed over as ever, and the rest is missed
      have hvalue : skipValue n (x ++ r) = .ok r :=
        pass_of_spells hx (by omega) (stops_of_items_cut hy hy')
      dsimp only
      rw [hvalue, ok_bind]
      exact ih hy hy' hq (fun hcuts => hnum (.laterItem hlead hx hcuts))
        (by simp only [Phrase.fuelFor]; omega)

/-- With one more unit of fuel so is the rest of an object. -/
theorem MissesEnd.members_succ {n : Nat} (ih : MissesEnd n) {s p q : Bytes} {first : Bool}
    {ms : List (Option String × Tree)} (h : Spells s (.members first ms)) (hs : s = p ++ q)
    (hq : q ≠ []) (hnum : ¬CutsNumeral p q (.members first ms)) (hfuel : 2 * p.length + 1 ≤ n) :
    skipMembers (n + 1) first p = .error .ended := by
  rw [skipMembers]
  cases h with
  | endMembers hg =>
    obtain ⟨r, rfl⟩ := cut_concat hs hq
    rw [nextMember_blank hg.of_append.1, error_bind]
  | @member lead k g g' x y _ key t ms hlead hk hg hg' hx hy =>
    -- the cut is in front of the member, inside its key or behind the key
    obtain ⟨r, hr⟩ | ⟨r, r', rfl, hkey⟩ | ⟨r, rfl, hrest⟩ := member_cut hs
    · rw [nextMember_cut hlead hr, error_bind]
    · rw [nextMember_item hlead, ok_bind]
      dsimp only
      rw [skipText_cut hk.passable hkey, error_bind]
    · rw [nextMember_item hlead, ok_bind]
      dsimp only
      rw [skipText_append hk.passable, ok_bind]
      -- behind the key the cut is in front of the colon or behind it
      obtain ⟨r', rfl⟩ | ⟨r', rfl, hrest'⟩ := cut_mark hrest
      · rw [colon_blank hg.of_append.1, error_bind]
      · simp only [List.length_append, List.length_cons] at hfuel
        rw [colon_of_blank hg, ok_bind]
        obtain ⟨u, rfl⟩ | ⟨u, u', hu, hu', rfl, hsplit, rfl⟩ | ⟨u, rfl, hsplit⟩ := item_cut hrest'
        · rw [skipValue_blank hg'.of_append.1, error_bind]
        · rw [List.length_append] at hfuel
          have hvalue : skipValue n u = .error .ended :=
            ih hx hsplit hu' (fun hcuts => hnum (.member hlead hk hg hg' hcuts hy))
              (by simp only [Phrase.fuelFor]; omega)
          rw [skipValue_append hg', hvalue, error_bind]
        · rw [List.length_append, List.length_append] at hfuel
          have hvalue : skipValue n (x ++ u) = .ok u :=
            pass_of_spells hx (by omega) (stops_of_members_cut hy hsplit)
          rw [skipValue_append hg', hvalue, ok_bind]
          exact ih hy hsplit hq (fun hcuts => hnum (.laterMember hlead hk hg hg' hx hcuts))
            (by simp only [Phrase.fuelFor]; omega)

/-- Whatever the fuel, what is cut off is missed to its end. -/
theorem missesEnd (n : Nat) : MissesEnd n := by
  induction n with
  | zero =>
    -- being out of fuel is reported as the end, too
    intro s p q phrase
    cases phrase <;> exact fun _ _ _ _ _ => rfl
  | succ n ih =>
    intro s p q phrase h hs hq hnum hfuel
    cases phrase with
    | value => exact ih.value_succ h hs hq hnum (Nat.le_of_succ_le_succ hfuel)
    | items => exact ih.items_succ h hs hq hnum (Nat.le_of_succ_le_succ hfuel)
    | members => exact ih.members_succ h hs hq hnum (Nat.le_of_succ_le_succ hfuel)

/-- The first part of a value with blanks before it: blanks only, or an octet of the value too. -/
theorem value_cut {s g p q : Bytes} {t : Tree} (h : Spells s (.value t)) (hg : IsBlank g)
    (hs : g ++ s = p ++ q) :
    IsBlank p ∨ ∃ b u, p = g ++ b :: u ∧ s = b :: (u ++ q) ∧ isSpace b = false := by
  obtain ⟨r, -, rfl, -⟩ | ⟨r, rfl, hr⟩ := cut_append hs
  · exact .inl hg.of_append.1
  -- what is behind the blanks starts with the first octet of the value
  · cases r with
    | nil => exact .inl (by simpa using hg)
    | cons b u =>
      obtain ⟨c, v, rfl, hc⟩ := h.head
      obtain ⟨rfl, rfl⟩ := List.cons.inj hr
      exact .inr ⟨c, u, rfl, rfl, hc.not_space⟩

/-- A value that nobody wants is missed when it is cut off. -/
theorem skip_cut {s g p q : Bytes} {t : Tree} (h : Spells s (.value t)) (hg : IsBlank g)
    (hs : g ++ s = p ++ q) (hq : q ≠ [])
    (hnum : ∀ r, p = g ++ r → ¬CutsNumeral r q (.value t)) : skip p = .error .ended := by
  obtain hp | ⟨b, u, rfl, hsplit, -⟩ := value_cut h hg hs
  · exact skipValue_blank hp _
  · have hfuel : 2 * (b :: u).length + 1 ≤ 2 * (g ++ b :: u).length + 1 := by
      simp only [List.length_append]
      omega
    rw [skip, skipValue_append hg]
    exact missesEnd (2 * (g ++ b :: u).length + 1) h hsplit hq (hnum _ rfl) hfuel

/-! ## Where numerals are cut -/

/-- A cut inside a numeral is between two octets of it. -/
theorem CutsNumeral.sides {p q : Bytes} {phrase : Phrase} (h : CutsNumeral p q phrase) :
    ∃ u b c v, p = u ++ [b] ∧ q = c :: v ∧ isNumeralOctet b = true ∧ isNumeralOctet c = true := by
  -- the parts around the numeral are put in front of one side or behind the other
  induction h with
  | number h hp hq =>
    obtain ⟨u, b, rfl⟩ := List.eq_nil_or_concat _ |>.resolve_left hp
    obtain ⟨c, v, rfl⟩ := List.exists_cons_of_ne_nil hq
    exact ⟨u, b, c, v, by simp, rfl, h.octets b (by simp), h.octets c (by simp)⟩
  | list _ ih =>
    obtain ⟨u, b, c, v, rfl, rfl, hb, hc⟩ := ih
    exact ⟨openList :: u, b, c, v, rfl, rfl, hb, hc⟩
  | object _ ih =>
    obtain ⟨u, b, c, v, rfl, rfl, hb, hc⟩ := ih
    exact ⟨openObject :: u, b, c, v, rfl, rfl, hb, hc⟩
  | @item lead _ _ s _ _ _ _ _ _ ih =>
    obtain ⟨u, b, c, v, rfl, rfl, hb, hc⟩ := ih
    exact ⟨lead ++ u, b, c, v ++ s, by simp, rfl, hb, hc⟩
  | @laterItem lead _ _ s _ _ _ _ _ _ ih =>
    obtain ⟨u, b, c, v, rfl, rfl, hb, hc⟩ := ih
    exact ⟨lead ++ (s ++ u), b, c, v, by simp, rfl, hb, hc⟩
  | @member lead k g g' _ _ s _ _ _ _ _ _ _ _ _ _ ih =>
    obtain ⟨u, b, c, v, rfl, rfl, hb, hc⟩ := ih
    exact ⟨lead ++ quote :: (k ++ quote :: (g ++ colonMark :: (g' ++ u))), b, c, v ++ s, by simp,
      rfl, hb, hc⟩
  | @laterMember lead k g g' _ _ s _ _ _ _ _ _ _ _ _ _ ih =>
    obtain ⟨u, b, c, v, rfl, rfl, hb, hc⟩ := ih
    exact ⟨lead ++ quote :: (k ++ quote :: (g ++ colonMark :: (g' ++ (s ++ u)))), b, c, v, by simp,
      rfl, hb, hc⟩

/-- The cut between `p` and `q` falls inside a numeral of the text that they are together. -/
def CutsTextNumeral (p q : Bytes) : Prop :=
  ∃ g p' q' g' t, IsBlank g ∧ IsBlank g' ∧ p = g ++ p' ∧ q = q' ++ g' ∧ CutsNumeral p' q' (.value t)

end LibraryPlayer.Json
