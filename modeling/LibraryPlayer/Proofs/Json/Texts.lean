import LibraryPlayer.Proofs.Json.Punctuation

/-!
# Reading texts

`readText` takes exactly what spells a text (`readText_append`, `content_of_readText`) and
`skipText` what is passable (`skipText_append`, `passable_of_skipText`), each with the closing
quotation mark.  Whatever spells a text is passable, and it spells one text only, so octets between
quotation marks say one thing (`Quoted.unique`).
-/

namespace LibraryPlayer.Json

/-! ## Escapes -/

/-- Four hexadecimal digits are read as their number. -/
theorem readHex_append {u : Bytes} {n : Nat} (h : Hex u n) (s : Bytes) :
    readHex (u ++ s) = .ok (n, s) := by
  obtain ⟨ha, hb, hc, hd⟩ := h
  simp [readHex, ha, hb, hc, hd]

/-- Nothing else is read as one. -/
theorem hex_of_readHex {s t : Bytes} {n : Nat} (h : readHex s = .ok (n, t)) :
    ∃ u, s = u ++ t ∧ Hex u n := by
  unfold readHex at h
  split at h
  next a b c d s =>
    split at h
    next w x y z ha hb hc hd =>
      cases h
      exact ⟨[a, b, c, d], rfl, .mk ha hb hc hd⟩
    · exact nomatch h
  · exact nomatch h

/-- The letter of an escape by number is no escape of its own. -/
theorem escaped?_unit : escaped? 0x75 = none := by decide

/-- No number is both halves of a surrogate pair. -/
theorem isLowSurrogate_of_high {n : Nat} (h : isHighSurrogate n = true) :
    isLowSurrogate n = false := by
  simp only [isHighSurrogate, isLowSurrogate, Bool.and_eq_true, Bool.and_eq_false_iff,
    decide_eq_true_eq, decide_eq_false_iff_not] at h ⊢
  omega

/-- An escape by number is read as its character, over both halves of a pair. -/
theorem readUnit_append {e u : Bytes} (h : Escape (0x75 :: e) u) (s : Bytes) :
    readUnit (e ++ s) = .ok (u, s) := by
  cases h with
  | short h =>
    rw [escaped?_unit] at h
    exact nomatch h
  | unit hu hlow hhigh => simp [readUnit, readHex_append hu, hlow, hhigh, pure, Except.pure]
  | @pair u v n m hu hv hhigh hlow =>
    -- the second half follows the first with its own backslash and letter
    have hexpect : expect [backslash, 0x75] (backslash :: 0x75 :: (v ++ s)) = .ok (v ++ s) :=
      expect_eq_ok.2 rfl
    simp [readUnit, readHex_append hu, readHex_append hv, hhigh, hlow, isLowSurrogate_of_high hhigh,
      hexpect, pure, Except.pure]

/-- What has been read as an escape by number is one. -/
theorem escape_of_readUnit {s t u : Bytes} (h : readUnit s = .ok (u, t)) :
    ∃ e, s = e ++ t ∧ Escape (0x75 :: e) u := by
  obtain ⟨⟨n, s₁⟩, hn, h₁⟩ := bind_eq_ok.1 h
  obtain ⟨v, rfl, hv⟩ := hex_of_readHex hn
  dsimp only at h₁
  split at h₁
  · exact nomatch h₁
  next hlow =>
    split at h₁
    -- a high surrogate needs its other half, any other number is a character by itself
    next hhigh =>
      obtain ⟨s₂, hs₂, h₂⟩ := bind_eq_ok.1 h₁
      obtain ⟨⟨m, s₃⟩, hm, h₃⟩ := bind_eq_ok.1 h₂
      obtain rfl := expect_eq_ok.1 hs₂
      obtain ⟨w, rfl, hw⟩ := hex_of_readHex hm
      dsimp only at h₃
      split at h₃
      next hm =>
        obtain ⟨rfl, rfl⟩ := Prod.mk.inj (Except.ok.inj h₃)
        exact ⟨v ++ backslash :: 0x75 :: w, by simp, .pair hv hw hhigh hm⟩
      · exact nomatch h₃
    next hhigh =>
      cases h₁
      exact ⟨v, rfl, .unit hv (by simpa using hlow) (by simpa using hhigh)⟩

/-- An escape is read as its character. -/
theorem readEscape_append {e u : Bytes} (h : Escape e u) (s : Bytes) :
    readEscape (e ++ s) = .ok (u, s) := by
  cases h with
  | @short b c h =>
    -- the letter of an escape by number is read elsewhere
    have hb : b ≠ 0x75 := by
      rintro rfl
      simp [escaped?_unit] at h
    simp [readEscape, hb, h]
  | unit hu hlow hhigh => exact readUnit_append (.unit hu hlow hhigh) s
  | pair hu hv hhigh hlow => exact readUnit_append (.pair hu hv hhigh hlow) s

/-- What has been read as an escape is one. -/
theorem escape_of_readEscape {s t u : Bytes} (h : readEscape s = .ok (u, t)) :
    ∃ e, s = e ++ t ∧ Escape e u := by
  unfold readEscape at h
  split at h
  · exact nomatch h
  next b s =>
    split at h
    next hb =>
      obtain ⟨e, rfl, he⟩ := escape_of_readUnit h
      exact ⟨0x75 :: e, by rw [hb]; rfl, he⟩
    · split at h
      next c hc =>
        cases h
        exact ⟨[b], rfl, .short hc⟩
      · exact nomatch h

/-! ## Texts that are read -/

/-- It can be computed whether an octet stands for itself. -/
instance (b : UInt8) : Decidable (IsPlain b) :=
  decidable_of_iff (b ≠ quote ∧ b ≠ backslash ∧ ¬b < 0x20)
    ⟨fun ⟨hq, hb, hp⟩ => ⟨hq, hb, hp⟩, fun ⟨hq, hb, hp⟩ => ⟨hq, hb, hp⟩⟩

/-- Octets that stand for themselves spell themselves. -/
theorem content_of_plain {s : Bytes} (h : ∀ b ∈ s, IsPlain b) : Content s s := by
  induction s with
  | nil => exact .nil
  | cons b s ih =>
    obtain ⟨hb, hs⟩ := List.forall_mem_cons.1 h
    exact .plain hb (ih hs)

/-- What stands between quotation marks is read up to the closing one, if there is fuel for its
octets. -/
theorem readContent_append {c o : Bytes} (h : Content c o) {fuel : Nat} (hfuel : c.length < fuel)
    (s : Bytes) : readContent fuel (c ++ quote :: s) = .ok (o, s) := by
  -- on the octets as the grammar has them; each production uses up at least one of them
  induction h generalizing fuel with
  | nil =>
    obtain ⟨fuel, rfl⟩ := Nat.exists_eq_add_of_lt hfuel
    simp [readContent]
  | plain hb _ ih =>
    obtain ⟨fuel, rfl⟩ := Nat.exists_eq_add_of_lt (Nat.zero_lt_of_lt hfuel)
    rw [List.length_cons] at hfuel
    simp [readContent, hb.ne_quote, hb.ne_backslash, hb.printable,
      ih (show _ < fuel by omega), pure, Except.pure]
  | escape he _ ih =>
    obtain ⟨fuel, rfl⟩ := Nat.exists_eq_add_of_lt (Nat.zero_lt_of_lt hfuel)
    rw [List.length_cons, List.length_append] at hfuel
    have hne : backslash ≠ quote := by decide
    simp [readContent, hne, readEscape_append he, ih (show _ < fuel by omega), pure, Except.pure]

/-- What has been read between quotation marks spells the result. -/
theorem content_of_readContent {fuel : Nat} {s t o : Bytes}
    (h : readContent fuel s = .ok (o, t)) : ∃ c, s = c ++ quote :: t ∧ Content c o := by
  -- as the reader goes on: a quotation mark, an escape or a plain octet
  induction fuel generalizing s o with
  | zero => exact nomatch h
  | succ fuel ih =>
    cases s with
    | nil => exact nomatch h
    | cons b s =>
      rw [readContent] at h
      split at h
      next hb =>
        cases h
        exact ⟨[], by rw [hb]; rfl, .nil⟩
      next hquote =>
        split at h
        next hb =>
          obtain ⟨⟨u, s₁⟩, he, h⟩ := bind_eq_ok.1 h
          obtain ⟨⟨v, s₂⟩, hv, h⟩ := bind_eq_ok.1 h
          cases h
          obtain ⟨e, rfl, hescape⟩ := escape_of_readEscape he
          obtain ⟨c, rfl, hc⟩ := ih hv
          exact ⟨backslash :: (e ++ c), by simp [hb], .escape hescape hc⟩
        next hback =>
          split at h
          · exact nomatch h
          next hlow =>
            obtain ⟨⟨v, s₁⟩, hv, h⟩ := bind_eq_ok.1 h
            cases h
            obtain ⟨c, rfl, hc⟩ := ih hv
            exact ⟨b :: c, rfl, .plain ⟨hquote, hback, hlow⟩ hc⟩

/-- What spells a text is read as it. -/
theorem readText_append {c : Bytes} {t : String} (h : Content c (Text.octets t)) (s : Bytes) :
    readText (c ++ quote :: s) = .ok (t, s) := by
  have hfuel : c.length < (c ++ quote :: s).length := by simp
  rw [readText, readContent_append h hfuel, ok_bind]
  simp [pure, Except.pure]

/-- A text that has been read is spelled up to the quotation mark. -/
theorem content_of_readText {s r : Bytes} {t : String} (h : readText s = .ok (t, r)) :
    ∃ c, s = c ++ quote :: r ∧ Content c (Text.octets t) := by
  obtain ⟨⟨o, s₁⟩, ho, hrest⟩ := bind_eq_ok.1 h
  obtain ⟨c, rfl, hc⟩ := content_of_readContent ho
  dsimp only at hrest
  split at hrest
  next t' ht =>
    cases hrest
    exact ⟨c, rfl, (Text.octets_of_ofOctets? ht).symm ▸ hc⟩
  · exact nomatch hrest

/-! ## Texts that nobody wants -/

/-- What is passable is passed over, if there is fuel for its octets. -/
theorem skipContent_append {c : Bytes} (h : Passable c) {fuel : Nat} (hfuel : c.length < fuel)
    (s : Bytes) : skipContent fuel (c ++ quote :: s) = .ok s := by
  have hne : backslash ≠ quote := by decide
  -- as in `readContent_append`, but for halves of a pair, which pass one by one
  induction h generalizing fuel with
  | nil =>
    obtain ⟨fuel, rfl⟩ := Nat.exists_eq_add_of_lt hfuel
    simp [skipContent]
  | plain hb _ ih =>
    obtain ⟨fuel, rfl⟩ := Nat.exists_eq_add_of_lt (Nat.zero_lt_of_lt hfuel)
    rw [List.length_cons] at hfuel
    simp [skipContent, hb.ne_quote, hb.ne_backslash, hb.printable, ih (show _ < fuel by omega)]
  | @short b _ h _ ih =>
    obtain ⟨fuel, rfl⟩ := Nat.exists_eq_add_of_lt (Nat.zero_lt_of_lt hfuel)
    rw [List.length_cons, List.length_cons] at hfuel
    have hb : b ≠ 0x75 := by
      rintro rfl
      simp [escaped?_unit] at h
    simp [skipContent, hne, skipEscape, hb, h, ih (show _ < fuel by omega)]
  | unit hu _ ih =>
    obtain ⟨fuel, rfl⟩ := Nat.exists_eq_add_of_lt (Nat.zero_lt_of_lt hfuel)
    rw [List.length_cons, List.length_cons, List.length_append] at hfuel
    simp [skipContent, hne, skipEscape, readHex_append hu, ih (show _ < fuel by omega), Except.map]

/-- An escape that has been passed over keeps what follows it passable. -/
theorem passable_of_skipEscape {s t c : Bytes} (h : skipEscape s = .ok t) (hc : Passable c) :
    ∃ e, s = e ++ t ∧ Passable (backslash :: (e ++ c)) := by
  unfold skipEscape at h
  split at h
  · exact nomatch h
  next b s =>
    split at h
    next hb =>
      obtain ⟨⟨n, s₁⟩, hn, rfl⟩ := map_eq_ok.1 h
      obtain ⟨u, rfl, hu⟩ := hex_of_readHex hn
      exact ⟨0x75 :: u, by rw [hb]; rfl, .unit hu hc⟩
    · split at h
      next hb =>
        cases h
        exact ⟨[b], rfl, .short hb hc⟩
      · exact nomatch h

/-- What has been passed over is passable. -/
theorem passable_of_skipContent {fuel : Nat} {s t : Bytes} (h : skipContent fuel s = .ok t) :
    ∃ c, s = c ++ quote :: t ∧ Passable c := by
  -- as in `content_of_readContent`
  induction fuel generalizing s with
  | zero => exact nomatch h
  | succ fuel ih =>
    cases s with
    | nil => exact nomatch h
    | cons b s =>
      rw [skipContent] at h
      split at h
      next hb =>
        cases h
        exact ⟨[], by rw [hb]; rfl, .nil⟩
      next hquote =>
        split at h
        next hb =>
          obtain ⟨s₁, he, h⟩ := bind_eq_ok.1 h
          obtain ⟨c, rfl, hc⟩ := ih h
          obtain ⟨e, rfl, hescape⟩ := passable_of_skipEscape he hc
          exact ⟨backslash :: (e ++ c), by simp [hb], hescape⟩
        next hback =>
          split at h
          · exact nomatch h
          next hlow =>
            obtain ⟨c, rfl, hc⟩ := ih h
            exact ⟨b :: c, rfl, .plain ⟨hquote, hback, hlow⟩ hc⟩

/-- What is passable is passed over. -/
theorem skipText_append {c : Bytes} (h : Passable c) (s : Bytes) :
    skipText (c ++ quote :: s) = .ok s :=
  skipContent_append h (by simp) s

/-- What has been passed over up to a quotation mark is passable. -/
theorem passable_of_skipText {s t : Bytes} (h : skipText s = .ok t) :
    ∃ c, s = c ++ quote :: t ∧ Passable c :=
  passable_of_skipContent h

/-! ## What octets between quotation marks say -/

/-- An escape that spells a character can be passed over. -/
theorem Escape.passable {e u c : Bytes} (h : Escape e u) (hc : Passable c) :
    Passable (backslash :: (e ++ c)) := by
  cases h with
  | short h => exact .short (by simp [h]) hc
  | unit hu => exact .unit hu hc
  | pair hu hv =>
    -- a pair passes as two escapes by number
    rw [List.cons_append, List.append_assoc, List.cons_append, List.cons_append]
    exact .unit hu (.unit hv hc)

/-- What spells a text is passable. -/
theorem Content.passable {c o : Bytes} (h : Content c o) : Passable c := by
  induction h with
  | nil => exact .nil
  | plain hb _ ih => exact .plain hb ih
  | escape he _ ih => exact he.passable ih

/-- A spelling is that of one text only. -/
theorem Content.unique {c o o' : Bytes} (h : Content c o) (h' : Content c o') : o = o' := by
  -- a reader gives one result, and it reads both texts from these octets
  have hread := readContent_append h (Nat.lt_succ_self _) []
  rw [readContent_append h' (Nat.lt_succ_self _) []] at hread
  exact ((Prod.mk.inj (Except.ok.inj hread)).1).symm

/-- Whatever stands between quotation marks is passable. -/
theorem Quoted.passable {c : Bytes} {t : Option String} (h : Quoted c t) : Passable c := by
  cases h with
  | text h => exact h.passable
  | other h => exact h

/-- Octets between quotation marks say one thing. -/
theorem Quoted.unique {c : Bytes} {t t' : Option String} (h : Quoted c t) (h' : Quoted c t') :
    t = t' := by
  -- either both are texts, and then the same, or none is
  cases h with
  | text h =>
    cases h' with
    | text h' => rw [Text.octets_injective (h.unique h')]
    | other _ hnone => exact absurd h (hnone _)
  | other _ hnone =>
    cases h' with
    | text h' => exact absurd h' (hnone _)
    | other => rfl

/-- Whatever is passable says something, be it only that it is no text. -/
theorem Passable.exists_quoted {c : Bytes} (h : Passable c) : ∃ t, Quoted c t := by
  by_cases hc : ∃ t : String, Content c (Text.octets t)
  · obtain ⟨t, ht⟩ := hc
    exact ⟨some t, .text ht⟩
  · exact ⟨none, .other h fun t ht => hc ⟨t, ht⟩⟩

end LibraryPlayer.Json
