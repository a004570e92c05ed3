import PlcTags.Container.Format

/-!
# The format of written bytes

Of a container that was written, `Format.sniff` needs the first byte only: it is
the first character, an ASCII one.  In a table this character is a letter, and in
a document the bracket that opens the declaration.
-/

namespace PlcTags.Container.Format

/-! ## Bytes of a text -/

theorem toList_loop_eq (bytes : ByteArray) (index : Nat) (front : List UInt8) :
    ByteArray.toList.loop bytes index front =
      front.reverse ++ bytes.data.toList.drop index := by
  fun_induction ByteArray.toList.loop bytes index front with
  | case1 index front hindex ih =>
      have hdata : index < bytes.data.toList.length := hindex
      have hget : bytes.get! index = bytes.data.toList[index] := by
        simp [ByteArray.get!, hindex]
      rw [ih, List.drop_eq_getElem_cons hdata, hget]
      simp
  | case2 index front hindex =>
      have hdata : bytes.data.toList.length ≤ index := Nat.le_of_not_lt hindex
      rw [List.drop_eq_nil_of_le hdata, List.append_nil]

theorem toList_eq_data (bytes : ByteArray) : bytes.toList = bytes.data.toList :=
  toList_loop_eq bytes 0 []

/-- The bytes of a text that begins with an ASCII character. -/
theorem toUTF8_cons {c : Char} (hc : c.toNat < 128) (rest : List Char) :
    (String.ofList (c :: rest)).toUTF8.toList =
      c.toUInt8 :: (String.ofList rest).toUTF8.toList := by
  have hsize : c.utf8Size = 1 := by
    rw [Char.utf8Size_eq_one_iff, UInt32.le_iff_toNat_le]
    exact Nat.le_of_lt_succ hc
  rw [toList_eq_data, toList_eq_data]
  simp [String.toUTF8, List.utf8Encode, String.utf8EncodeChar_eq_singleton hsize]

/-! ## What it seems to be -/

/-- ASCII letters come after all blanks and the bracket, and before every mark. -/
theorem toNat_of_isAlpha {c : Char} (hc : c.isAlpha = true) :
    64 < c.toNat ∧ c.toNat < 123 := by
  have hcases : c.isUpper = true ∨ c.isLower = true := Bool.or_eq_true_iff.mp hc
  rcases hcases with hupper | hlower
  · obtain ⟨hlow, hhigh⟩ : 'A'.val ≤ c.val ∧ c.val ≤ 'Z'.val := of_decide_eq_true hupper
    rw [UInt32.le_iff_toNat_le] at hlow hhigh
    exact ⟨Nat.lt_of_lt_of_le (by decide) hlow, Nat.lt_of_le_of_lt hhigh (by decide)⟩
  · obtain ⟨hlow, hhigh⟩ := Bool.and_eq_true_iff.mp hlower
    have hlow := UInt32.le_iff_toNat_le.mp (of_decide_eq_true hlow)
    have hhigh := UInt32.le_iff_toNat_le.mp (of_decide_eq_true hhigh)
    exact ⟨Nat.lt_of_lt_of_le (by decide) hlow, Nat.lt_of_le_of_lt hhigh (by decide)⟩

/-- A text that begins with a letter is no document. -/
theorem sniff_of_letter {c : Char} (hc : c.isAlpha = true) (rest : List Char) :
    sniff (String.ofList (c :: rest)).toUTF8 = csv := by
  obtain ⟨hlow, hhigh⟩ := toNat_of_isAlpha hc
  have hbyte : c.toUInt8.toNat = c.toNat := by
    show c.val.toUInt8.toNat = c.toNat
    rw [UInt32.toNat_toUInt8]
    exact Nat.mod_eq_of_lt (Nat.lt_trans hhigh (by decide))
  -- Every byte that means something to `sniff` lies outside of the letters.
  have hmark : ∀ byte : UInt8, byte.toNat < 65 ∨ 127 < byte.toNat → c.toUInt8 ≠ byte := by
    rintro byte hrange rfl
    omega
  have hblank : isBlankByte c.toUInt8 = false := by
    simp [isBlankByte, hmark 0x20 (by decide), hmark 0x09 (by decide), hmark 0x0A (by decide),
      hmark 0x0C (by decide), hmark 0x0D (by decide)]
  rw [sniff, toUTF8_cons (Nat.lt_trans hhigh (by decide))]
  have hkeep : withoutMark (c.toUInt8 :: (String.ofList rest).toUTF8.toList) =
      c.toUInt8 :: (String.ofList rest).toUTF8.toList := by
    rw [withoutMark]
    intro tail heq
    exact absurd (List.cons.inj heq).1 (hmark 0xEF (by decide))
  rw [hkeep, List.dropWhile_cons_of_neg (by simp [hblank])]
  split
  · rename_i tail heq
    exact absurd (List.cons.inj heq).1 (hmark 0x3C (by decide))
  · rfl

/-- A text that begins with a bracket is one. -/
theorem sniff_of_bracket (rest : List Char) :
    sniff (String.ofList ('<' :: rest)).toUTF8 = xml := by
  rw [sniff, toUTF8_cons (by decide)]
  rfl

end PlcTags.Container.Format
