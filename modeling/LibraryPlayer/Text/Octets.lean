/-! # Texts as octets

The UTF-8 octets of a text and the text of given octets, if they are UTF-8.  The two undo each
other (`ofOctets?_octets`, `octets_of_ofOctets?`).
-/

namespace LibraryPlayer.Text

/-- The UTF-8 octets of a text. -/
def octets (s : String) : List UInt8 := s.toUTF8.data.toList

/-- The text with these UTF-8 octets; none if they are not UTF-8. -/
def ofOctets? (bs : List UInt8) : Option String := String.fromUTF8? ⟨bs.toArray⟩

/-- Reading the octets of a text gives it back. -/
@[simp] theorem ofOctets?_octets (s : String) : ofOctets? (octets s) = some s := by
  unfold ofOctets? octets String.fromUTF8?
  rw [String.toUTF8_eq_toByteArray, Array.toArray_toList, dif_pos s.isValidUTF8]
  rfl

/-- Octets that are read as a text are the octets of that text. -/
theorem octets_of_ofOctets? {bs : List UInt8} {s : String} (h : ofOctets? bs = some s) :
    octets s = bs := by
  unfold ofOctets? String.fromUTF8? at h
  split at h
  · rw [Option.some.injEq] at h
    subst h
    rfl
  · contradiction

/-- Two texts with the same octets are the same text. -/
theorem octets_injective {s t : String} (h : octets s = octets t) : s = t := by
  have hs := ofOctets?_octets s
  rw [h, ofOctets?_octets, Option.some.injEq] at hs
  exact hs.symm

end LibraryPlayer.Text
