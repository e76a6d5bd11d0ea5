import LibraryPlayer.Proofs.Json.Cuts
import LibraryPlayer.Proofs.Json.Readings

/-!
# Wanted values that are cut short

When a value that a reader wants is cut off at its end, the reader reports that the octets end,
unless the cut falls inside a numeral (`Misses`).  Like the law for whole values, this one passes
from the readers for items and members to those for lists, objects and records.
-/

namespace LibraryPlayer.Json

variable {α β σ : Type}

/-- A reader misses the end of a wanted value that is cut off, with blanks before it. -/
def Misses (reader : Bytes → Except Fault (α × Bytes)) (wanted : Tree → Option α) : Prop :=
  ∀ ⦃s g p q : Bytes⦄ ⦃t : Tree⦄ ⦃a : α⦄, Spells s (.value t) → IsBlank g → wanted t = some a →
    g ++ s = p ++ q → q ≠ [] → (∀ r, p = g ++ r → ¬CutsNumeral r q (.value t)) →
    reader p = .error .ended

/-- A reader misses the end of what is left of a list or an object, if that is wanted and is cut
off. -/
def MissesRest (phrase : β → Phrase) (reader : Bytes → Except Fault (α × Bytes))
    (wanted : β → Option α) : Prop :=
  ∀ ⦃s p q : Bytes⦄ ⦃b : β⦄ ⦃a : α⦄, Spells s (phrase b) → wanted b = some a → s = p ++ q →
    q ≠ [] → ¬CutsNumeral p q (phrase b) → reader p = .error .ended

/-- A reader of members misses the end of a wanted value that is cut off, from the colon on. -/
def MissesMember (member : σ → String → Bytes → Except Fault (σ × Bytes))
    (enter : σ → String → Tree → Option σ) : Prop :=
  ∀ ⦃s g g' p q : Bytes⦄ ⦃t : Tree⦄ ⦃state state' : σ⦄ ⦃key : String⦄, Spells s (.value t) →
    IsBlank g → IsBlank g' → enter state key t = some state' →
    g ++ colonMark :: (g' ++ s) = p ++ q → q ≠ [] →
    (∀ r, p = g ++ colonMark :: (g' ++ r) → ¬CutsNumeral r q (.value t)) →
    member state key p = .error .ended

/-- A reader that goes on after another misses what this one misses. -/
theorem Misses.bind {reader : Bytes → Except Fault (α × Bytes)} {wanted : Tree → Option α}
    (h : Misses reader wanted) (f : α → Option β) {reader' : Bytes → Except Fault (β × Bytes)}
    {next : α × Bytes → Except Fault (β × Bytes)} (heq : ∀ s, reader' s = reader s >>= next) :
    Misses reader' fun t => (wanted t).bind f := by
  intro s g p q t b hs hg ht hsplit hq hnum
  obtain ⟨a, ha, -⟩ := Option.bind_eq_some_iff.1 ht
  rw [heq, h hs hg ha hsplit hq hnum, error_bind]

/-! ## Texts and numbers -/

/-- A wanted text is missed without its closing quotation mark. -/
theorem misses_text : Misses text Tree.text? := by
  intro s g p q t a hs hg ht hsplit hq hnum
  obtain hp | ⟨b, u, rfl, hcut, hb⟩ := value_cut hs hg hsplit
  · rw [text, skipSpace_blank hp]
  · rw [text, skipSpace_append hg, skipSpace_cons hb]
    cases t with
    | text t =>
      obtain rfl : t = some a := ht
      cases hs with
      | text hc =>
        cases hc with
        | text hc =>
          obtain ⟨rfl, hrest⟩ := List.cons.inj hcut
          -- the closing quotation mark is the last octet, so it is behind the cut
          obtain ⟨r, hr⟩ := cut_concat hrest hq
          exact readText_cut hc hr
    | _ => cases ht

/-- A wanted number is missed where it has not begun; a cut anywhere else is inside its numeral. -/
theorem misses_number : Misses number Tree.number? := by
  intro s g p q t a hs hg ht hsplit hq hnum
  obtain hp | ⟨b, u, rfl, hcut, hb⟩ := value_cut hs hg hsplit
  · rw [number, skipSpace_blank hp]
  · -- a number can only be cut off inside its numeral
    cases t with
    | number x =>
      cases hs with
      | number h =>
        subst hcut
        exact absurd (.number h (List.cons_ne_nil b u) hq) (hnum _ rfl)
    | _ => cases ht

/-- So is a double. -/
theorem misses_double : Misses double Tree.double? := by
  have hwanted : Tree.double? = fun t => t.number?.bind fun x => some x.value :=
    funext fun _ => Option.map_eq_bind
  rw [hwanted]
  exact misses_number.bind _ fun _ => rfl

/-- So is a natural number of 64 bits. -/
theorem misses_natural64 : Misses natural64 Tree.natural64? :=
  misses_number.bind Number.natural? fun _ => rfl

/-- So is one of 32 bits. -/
theorem misses_natural32 : Misses natural32 Tree.natural32? :=
  misses_natural64.bind _ fun _ => rfl

/-! ## Optional values -/

/-- An optional value is missed if the reader for values misses it. -/
theorem misses_optional {reader : Bytes → Except Fault (α × Bytes)} {wanted : Tree → Option α}
    (h : Misses reader wanted) : Misses (optional reader) (Tree.optional? wanted) := by
  intro s g p q t a hs hg ht hsplit hq hnum
  obtain hp | ⟨b, u, rfl, hcut, hb⟩ := value_cut hs hg hsplit
  · rw [optional, skipSpace_blank hp]
    rfl
  rw [optional, skipSpace_append hg, skipSpace_cons hb]
  -- one octet is enough to tell `null` from what the reader is for
  by_cases hnull : b = 0x6e
  · subst hnull hcut
    -- the rest of the literal is what is cut off
    obtain ⟨hrest, -⟩ := hs.eq_null
    simp [expect_cut hrest.symm hq]
  · obtain ⟨a, ha⟩ : ∃ a, wanted t = some a := by
      cases t with
      | null =>
        cases hs
        exact absurd (List.cons.inj hcut).1.symm hnull
      | _ =>
        obtain ⟨a, ha, -⟩ := Option.map_eq_some_iff.1 ht
        exact ⟨a, ha⟩
    have hread : reader (b :: u) = .error .ended :=
      h hs .nil ha hcut hq fun r hr => hnum r (by rw [← List.nil_append r, ← hr])
    simp [hnull, hread]

/-! ## Lists -/

/-- Wanted items that are cut off are missed, whatever the fuel. -/
theorem items_cut {item : Bytes → Except Fault (α × Bytes)} {wanted : Tree → Option α}
    (h : Reads item wanted) (hcut : Misses item wanted) {s p q : Bytes} {first : Bool}
    {ts : List Tree} {as : List α} (hs : Spells s (.items first ts))
    (hts : ts.mapM wanted = some as) (hsplit : s = p ++ q) (hq : q ≠ [])
    (hnum : ¬CutsNumeral p q (.items first ts)) (fuel : Nat) :
    items item fuel first p = .error .ended := by
  -- as the reader goes on; being out of fuel is reported as the end, too
  induction fuel generalizing s p first ts as with
  | zero => rfl
  | succ n ih =>
    rw [items]
    cases hs with
    | endItems hg =>
      obtain ⟨r, rfl⟩ := cut_concat hsplit hq
      rw [next_blank hg.of_append.1, error_bind]
    | @item lead x y _ t ts hlead hx hy =>
      rw [List.mapM_cons] at hts
      obtain ⟨b, hb, hts⟩ := Option.bind_eq_some_iff.1 hts
      obtain ⟨bs, hbs, -⟩ := Option.bind_eq_some_iff.1 hts
      -- the cut is in front of this item, inside it or behind it
      refine item_bind_cut (.inl rfl) hlead hx hsplit ?_ ?_
      · rintro r r' rfl hx' rfl hr'
        have hitem : item r = .error .ended :=
          hcut hx .nil hb hx' hr' fun u hu hcuts => hnum (.item hlead (hu ▸ hcuts) hy)
        dsimp only
        rw [hitem, error_bind]
      · rintro r rfl hy'
        have hitem := h.complete .nil hx hb (stops_of_items_cut hy hy')
        rw [List.nil_append] at hitem
        dsimp only
        rw [hitem, ok_bind]
        dsimp only
        rw [ih hy hbs hy' fun hcuts => hnum (.laterItem hlead hx hcuts), error_bind]

/-- A list is missed if the reader for its items misses them. -/
theorem misses_list {item : Bytes → Except Fault (α × Bytes)} {wanted : Tree → Option α}
    (h : Reads item wanted) (hcut : Misses item wanted) :
    Misses (list item) (Tree.list? wanted) := by
  intro s g p q t a hs hg ht hsplit hq hnum
  obtain hp | ⟨b, u, rfl, hcuts, hb⟩ := value_cut hs hg hsplit
  · rw [list, skipSpace_blank hp]
  · rw [list, skipSpace_append hg, skipSpace_cons hb]
    cases t with
    | list ts =>
      cases hs with
      | list hx =>
        -- the opening bracket is in front of the cut, which falls in what is left of the list
        obtain ⟨rfl, hx'⟩ := List.cons.inj hcuts
        exact items_cut h hcut hx ht hx' hq (fun hin => hnum _ rfl (.list hin)) _
    | _ => cases ht

/-! ## Objects and records -/

/-- Members that are wanted and are cut off are missed, whatever the fuel. -/
theorem members_cut {member : σ → String → Bytes → Except Fault (σ × Bytes)}
    {enter : σ → String → Tree → Option σ} (h : ReadsMember member enter)
    (hcut : MissesMember member enter) {s p q : Bytes} {first : Bool}
    {ms : List (Option String × Tree)} {state state' : σ} (hs : Spells s (.members first ms))
    (hms : Tree.foldMembers? enter state ms = some state') (hsplit : s = p ++ q) (hq : q ≠ [])
    (hnum : ¬CutsNumeral p q (.members first ms)) (fuel : Nat) :
    members member fuel first state p = .error .ended := by
  -- as in `items_cut`, with what has been entered so far carried along
  induction fuel generalizing s p first ms state with
  | zero => rfl
  | succ n ih =>
    rw [members]
    cases hs with
    | endMembers hg =>
      obtain ⟨r, rfl⟩ := cut_concat hsplit hq
      rw [nextMember_blank hg.of_append.1, error_bind]
    | @member lead k g g' x y _ key t ms hlead hk hg hg' hx hy =>
      cases hk with
      | other => cases hms
      | @text key hk =>
        obtain ⟨state₁, hstate₁, hms⟩ := Option.bind_eq_some_iff.1 hms
        -- in front of the member, inside its key or behind its key
        obtain ⟨r, hr⟩ | ⟨r, r', rfl, hkey⟩ | ⟨r, rfl, hrest⟩ := member_cut hsplit
        · rw [nextMember_cut hlead hr, error_bind]
        · rw [nextMember_item hlead, ok_bind]
          dsimp only
          rw [readText_cut hk hkey, error_bind]
        · rw [nextMember_item hlead, ok_bind]
          dsimp only
          rw [readText_append hk, ok_bind]
          dsimp only
          have hassoc : (g ++ colonMark :: (g' ++ x)) ++ y = r ++ q := by simpa using hrest
          -- either this member is cut off, or it is whole and a later one is
          obtain ⟨v, hv, hvalue, rfl⟩ | ⟨v, rfl, hy'⟩ := cut_append hassoc
          · have hmember : member state key r = .error .ended :=
              hcut hx hg hg' hstate₁ hvalue hv fun u hu hcuts =>
                hnum (hu ▸ .member hlead (.text hk) hg hg' hcuts hy)
            rw [hmember, error_bind]
          · have hmember := h.complete hg hg' hx hstate₁ (stops_of_members_cut hy hy')
            rw [List.append_assoc, List.cons_append, List.append_assoc] at hnum ⊢
            rw [hmember, ok_bind]
            exact ih hy hms hy' fun hcuts => hnum (.laterMember hlead (.text hk) hg hg' hx hcuts)

/-- Between a key and its value: the colon is missing, or it is there and the value is cut off. -/
theorem colon_bind_cut {g v p q : Bytes} (hg : IsBlank g) (hsplit : g ++ colonMark :: v = p ++ q)
    {next : Bytes → Except Fault α}
    (hnext : ∀ r, p = g ++ colonMark :: r → v = r ++ q → next r = .error .ended) :
    colon p >>= next = .error .ended := by
  obtain ⟨r, rfl⟩ | ⟨r, rfl, hv⟩ := cut_mark hsplit
  · rw [colon_blank hg.of_append.1, error_bind]
  · rw [colon_of_blank hg, ok_bind, hnext r rfl hv]

/-- A record is missed if the readers for lists and objects miss what is left of it. -/
theorem misses_record {fromList fromObject : Bytes → Except Fault (α × Bytes)}
    {fromItems : List Tree → Option α} {fromMembers : List (Option String × Tree) → Option α}
    (hl : MissesRest (.items true) fromList fromItems)
    (ho : MissesRest (.members true) fromObject fromMembers) :
    Misses (record fromList fromObject) (Tree.record? fromItems fromMembers) := by
  intro s g p q t a hs hg ht hsplit hq hnum
  obtain hp | ⟨b, u, rfl, hcut, hb⟩ := value_cut hs hg hsplit
  · rw [record, skipSpace_blank hp]
  · rw [record, skipSpace_append hg, skipSpace_cons hb]
    -- the bracket tells which of the two readers goes on
    cases t with
    | list ts =>
      cases hs with
      | list hx =>
        obtain ⟨rfl, hx'⟩ := List.cons.inj hcut
        exact hl hx ht hx' hq fun hin => hnum _ rfl (.list hin)
    | object ms =>
      cases hs with
      | object hx =>
        obtain ⟨rfl, hx'⟩ := List.cons.inj hcut
        exact ho hx ht hx' hq fun hin => hnum _ rfl (.object hin)
    | _ => cases ht

end LibraryPlayer.Json
