/-!
# Characters read off bytes

The characters of a text are decoded from its bytes, one after another. Where all bytes are ASCII
they are the characters, and nothing has to be decoded. So closed facts about long texts, such as
the questions that a store is asked, are decided faster for `Text.charsOf`.

## Main definitions

* `Text.charsOf`: the characters of a text, read off its bytes if these are ASCII.

## Main results

* `Text.charsOf_eq`: these are the characters of the text.
-/

namespace PressRegister.Text

/-- The characters of a text, read off its bytes if these are ASCII. -/
def charsOf (s : String) : List Char :=
  if s.toByteArray.data.toList.all (· < 128) then
    s.toByteArray.data.toList.map fun b => Char.ofNat b.toNat
  else s.toList

/-- A character that is encoded in ASCII bytes is encoded in one, which is its number. -/
theorem map_utf8EncodeChar {c : Char}
    (h : (String.utf8EncodeChar c).all (· < 128) = true) :
    (String.utf8EncodeChar c).map (fun b => Char.ofNat b.toNat) = [c] := by
  have hnumber : c.val.toNat = c.toNat := rfl
  unfold String.utf8EncodeChar at *
  simp only [hnumber] at *
  split at h
  · rename_i hsmall
    rw [if_pos hsmall, List.map_singleton, UInt8.toNat_ofNat', Nat.mod_eq_of_lt (by omega),
      Char.ofNat_toNat]
  · -- the first of several bytes is never ASCII
    exfalso
    split at h
    · simp [UInt8.lt_iff_toNat_lt] at h
      omega
    · split at h <;> simp [UInt8.lt_iff_toNat_lt] at h <;> omega

theorem map_flatMap_utf8EncodeChar {cs : List Char}
    (h : (cs.flatMap String.utf8EncodeChar).all (· < 128) = true) :
    (cs.flatMap String.utf8EncodeChar).map (fun b => Char.ofNat b.toNat) = cs := by
  induction cs with
  | nil => rfl
  | cons c cs ih =>
    rw [List.flatMap_cons, List.all_append, Bool.and_eq_true] at h
    rw [List.flatMap_cons, List.map_append, map_utf8EncodeChar h.1, ih h.2,
      List.singleton_append]

theorem charsOf_eq (s : String) : charsOf s = s.toList := by
  have hbytes : s.toByteArray.data.toList = s.toList.flatMap String.utf8EncodeChar := by
    rw [← String.utf8Encode_toList, List.utf8Encode, List.toList_data_toByteArray]
  unfold charsOf
  split
  · rename_i hascii
    rw [hbytes] at hascii ⊢
    exact map_flatMap_utf8EncodeChar hascii
  · rfl

end PressRegister.Text
