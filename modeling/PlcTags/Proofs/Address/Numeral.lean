import PlcTags.Address.Basic
import PlcTags.Proofs.Result

/-!
# Numbers and letters of an address

The grammars of the vendors have their numbers and their sizes in common.  `Writes` says
which digits write a number: ASCII digits, not too many of them, with a value in its
range.  What follows a number in an address never begins with a digit, and under that
condition `digitsUpTo` cuts out exactly these digits (`Writes.digitsUpTo_eq`) and `bounded`
gives their value (`Writes.bounded_eq`); digits that were cut out and have a value write
it (`writes_of_bounded`).

Digits of other scripts are cut out as well, but have no value.  On ASCII the two notions
agree (`isAnyDigit_of_ascii`).

The characters of a canonical spelling are all `Canonical`: they are graphic,
and no lower-case letters.  Trimming and raising the case leave such a text as
it is.
-/

namespace PlcTags.Address

open Text

/-! ## Characters of a canonical spelling -/

/-- A graphic character of ASCII before the lower-case letters. -/
def Canonical (c : Char) : Prop :=
  0x21 ≤ c.toNat ∧ c.toNat ≤ 0x5F

instance (c : Char) : Decidable (Canonical c) :=
  inferInstanceAs (Decidable (_ ∧ _))

theorem toUpper_eq_self {c : Char} (h : c.toNat < 97 ∨ 122 < c.toNat) : c.toUpper = c := by
  have hcase : ¬ (c.val ≥ 97 ∧ c.val ≤ 122) := by
    rintro ⟨hge, hle⟩
    -- The bounds of `Char.toUpper` are on the code as a machine word.
    have hge : 97 ≤ c.toNat := hge
    have hle : c.toNat ≤ 122 := hle
    omega
  exact dif_neg hcase

theorem Canonical.toUpper_eq {c : Char} (h : Canonical c) : c.toUpper = c :=
  toUpper_eq_self (.inl (Nat.lt_of_le_of_lt h.2 (by decide)))

theorem Canonical.isBlank_eq {c : Char} (h : Canonical c) : isBlank c = false := by
  obtain ⟨hge, hle⟩ := h
  simp only [isBlank, Bool.or_eq_false_iff, Bool.and_eq_false_iff, decide_eq_false_iff_not,
    beq_eq_false_iff_ne, ne_eq]
  omega

theorem map_toUpper_of_canonical {text : List Char} (h : ∀ c ∈ text, Canonical c) :
    text.map Char.toUpper = text := by
  induction text with
  | nil => rfl
  | cons c rest ih =>
      rw [List.map_cons, (h c List.mem_cons_self).toUpper_eq,
        ih fun d hd => h d (List.mem_cons_of_mem _ hd)]

/-! ## Digits -/

theorem isAnyDigit_of_ascii {c : Char} (h : c.toNat < 0x80) : isAnyDigit c = c.isDigit := by
  have hdigit : c.isDigit = (decide (48 ≤ c.toNat) && decide (c.toNat ≤ 57)) := rfl
  rw [hdigit, isAnyDigit, CharSet.contains, Property.decimalDigit]
  -- The table of digits begins with the ASCII digits, and the next run lies beyond ASCII.
  by_cases hlow : c.toNat < 0x30
  · rw [CharSet.covers_of_lt _ hlow, decide_eq_false (by omega), Bool.false_and]
  · rw [CharSet.covers_of_le _ (by omega)]
    by_cases hhigh : c.toNat < 0x3A
    · rw [CharSet.covers_of_lt _ hhigh, decide_eq_true (by omega), decide_eq_true (by omega)]
      rfl
    · rw [CharSet.covers_of_le _ (by omega), CharSet.covers_of_lt _ (by omega),
        decide_eq_false (p := c.toNat ≤ 57) (by omega), Bool.and_false]
      rfl

theorem toNat_of_isDigit {c : Char} (h : c.isDigit = true) :
    0x30 ≤ c.toNat ∧ c.toNat ≤ 0x39 := by
  have hdigit : c.isDigit = (decide (48 ≤ c.toNat) && decide (c.toNat ≤ 57)) := rfl
  rw [hdigit, Bool.and_eq_true, decide_eq_true_eq, decide_eq_true_eq] at h
  exact h

theorem isAnyDigit_of_isDigit {c : Char} (h : c.isDigit = true) : isAnyDigit c = true := by
  have := toNat_of_isDigit h
  rw [isAnyDigit_of_ascii (by omega), h]

theorem isDigit_of_mem_decimal {n : Nat} {c : Char} (h : c ∈ decimal n) : c.isDigit = true :=
  Nat.isDigit_of_mem_toDigits (by omega) (by omega) h

theorem canonical_decimal (n : Nat) : ∀ c ∈ decimal n, Canonical c := by
  intro c hc
  have := toNat_of_isDigit (isDigit_of_mem_decimal hc)
  exact ⟨by omega, by omega⟩

/-! ## Cutting out a number -/

/-- A text that does not go on with a digit. -/
def EndsDigits (text : List Char) : Prop :=
  ∀ c ∈ text.head?, isAnyDigit c = false

@[simp] theorem endsDigits_nil : EndsDigits [] := by
  simp [EndsDigits]

theorem endsDigits_cons {c : Char} (rest : List Char) (hascii : c.toNat < 0x80)
    (hdigit : c.isDigit = false) : EndsDigits (c :: rest) := by
  intro d hd
  obtain rfl : c = d := by simpa using hd
  rw [isAnyDigit_of_ascii hascii, hdigit]

theorem takeWhile_isAnyDigit_append {digits rest : List Char}
    (hdigits : ∀ c ∈ digits, isAnyDigit c = true) (hrest : EndsDigits rest) :
    (digits ++ rest).takeWhile isAnyDigit = digits ∧
      (digits ++ rest).dropWhile isAnyDigit = rest := by
  rw [List.takeWhile_append_of_pos hdigits, List.dropWhile_append_of_pos hdigits]
  cases rest with
  | nil => simp
  | cons c tail =>
      have hc : isAnyDigit c = false := hrest c (by simp)
      simp [hc]

/-! ## Numbers as they are written -/

/-- The digits write a number: between 1 and `limit` ASCII digits, zeros in front of it
among them, with a value from `least` to `greatest`. -/
structure Writes (limit least greatest : Nat) (digits : List Char) (n : Nat) : Prop where
  isDigit : ∀ c ∈ digits, c.isDigit = true
  length_pos : 1 ≤ digits.length
  length_le : digits.length ≤ limit
  value : Nat.ofDigitChars 10 digits 0 = n
  least_le : least ≤ n
  le_greatest : n ≤ greatest

/-- A number that need not be there, with a mark in front of it. -/
inductive WritesAfter (mark : Char) (limit greatest : Nat) : List Char → Option Nat → Prop
  | nothing : WritesAfter mark limit greatest [] none
  | number {digits : List Char} {n : Nat} (hn : Writes limit 0 greatest digits n) :
      WritesAfter mark limit greatest (mark :: digits) (some n)

variable {limit least greatest n : Nat} {digits text rest : List Char} {quantity : Quantity}

theorem eq_append_of_digitsUpTo (h : digitsUpTo limit text = some (digits, rest)) :
    text = digits ++ rest ∧ 1 ≤ digits.length ∧ digits.length ≤ limit := by
  unfold digitsUpTo at h
  dsimp only at h
  split at h
  · rename_i hlength
    obtain ⟨rfl, rfl⟩ := Prod.mk.inj (Option.some.inj h)
    exact ⟨List.takeWhile_append_dropWhile.symm, hlength⟩
  · cases h

theorem eq_of_allDigits (h : allDigits limit text = some digits) :
    text = digits ∧ 1 ≤ digits.length ∧ digits.length ≤ limit := by
  unfold allDigits at h
  split at h
  · rename_i hcut
    obtain rfl := Option.some.inj h
    have hcut := eq_append_of_digitsUpTo hcut
    rwa [List.append_nil] at hcut
  · cases h

/-- Digits that have a value write it. -/
theorem writes_of_bounded (hlength : 1 ≤ digits.length ∧ digits.length ≤ limit)
    (h : bounded quantity least greatest digits = .ok n) :
    Writes limit least greatest digits n := by
  unfold bounded at h
  split at h
  · rename_i hdigits
    dsimp only at h
    split at h
    · rename_i hbounds
      obtain rfl := Except.ok.inj h
      exact ⟨List.all_eq_true.mp hdigits, hlength.1, hlength.2, rfl, hbounds.1, hbounds.2⟩
    · cases h
  · cases h

namespace Writes

theorem isAnyDigit (h : Writes limit least greatest digits n) :
    ∀ c ∈ digits, isAnyDigit c = true :=
  fun c hc => isAnyDigit_of_isDigit (h.isDigit c hc)

theorem ne_nil (h : Writes limit least greatest digits n) : digits ≠ [] :=
  List.ne_nil_of_length_pos h.length_pos

theorem notMem {c : Char} (hc : c.isDigit = false) (h : Writes limit least greatest digits n) :
    c ∉ digits := by
  intro hmem
  rw [h.isDigit c hmem] at hc
  cases hc

/-- The number is cut out, whatever follows it. -/
theorem digitsUpTo_eq (h : Writes limit least greatest digits n) (hrest : EndsDigits rest) :
    digitsUpTo limit (digits ++ rest) = some (digits, rest) := by
  obtain ⟨htake, hdrop⟩ := takeWhile_isAnyDigit_append h.isAnyDigit hrest
  rw [digitsUpTo, htake, hdrop, if_pos ⟨h.length_pos, h.length_le⟩]

theorem allDigits_eq (h : Writes limit least greatest digits n) :
    allDigits limit digits = some digits := by
  have hcut := h.digitsUpTo_eq endsDigits_nil
  rw [List.append_nil] at hcut
  rw [allDigits, hcut]

theorem bounded_eq (h : Writes limit least greatest digits n) (quantity : Quantity) :
    bounded quantity least greatest digits = .ok n := by
  have hall : digits.all Char.isDigit = true := List.all_eq_true.mpr h.isDigit
  rw [bounded, if_pos hall]
  simp only [h.value]
  rw [if_pos ⟨h.least_le, h.le_greatest⟩]

end Writes

/-- Decimal notation writes a number. -/
theorem writes_decimal (hlimit : 0 < limit) (hdigits : greatest < Nat.pow 10 limit)
    (hleast : least ≤ n) (hgreatest : n ≤ greatest) :
    Writes limit least greatest (decimal n) n where
  isDigit _ hc := isDigit_of_mem_decimal hc
  length_pos := Nat.length_toDigits_pos
  length_le := (Nat.length_toDigits_le_iff (by omega) hlimit).mpr
    (Nat.lt_of_le_of_lt hgreatest hdigits)
  value := Nat.ofDigitChars_ten_toDigits
  least_le := hleast
  le_greatest := hgreatest

namespace WritesAfter

variable {mark : Char} {value : Option Nat}

theorem le_greatest (h : WritesAfter mark limit greatest text value) :
    ∀ n ∈ value, n ≤ greatest := by
  cases h with
  | nothing =>
      rintro _ ⟨⟩
  | number hn =>
      rintro _ ⟨⟩
      exact hn.le_greatest

theorem endsDigits (hascii : mark.toNat < 0x80) (hdigit : mark.isDigit = false)
    (h : WritesAfter mark limit greatest text value) (hrest : EndsDigits rest) :
    EndsDigits (text ++ rest) := by
  cases h with
  | nothing => exact hrest
  | number => exact endsDigits_cons _ hascii hdigit

end WritesAfter

/-! ## Letters of sizes -/

/-- The letter of a size, and the types that an element of this size can hold. -/
inductive IsSizeLetter : Char → Size → List DataType → Prop
  | byte : IsSizeLetter 'B' .byte []
  | word : IsSizeLetter 'W' .word [.int16]
  | doubleWord : IsSizeLetter 'D' .doubleWord [.int32, .real]

namespace IsSizeLetter

variable {letter : Char} {size : Size} {types : List DataType}

theorem ofLetter?_eq (h : IsSizeLetter letter size types) : Size.ofLetter? letter = some size := by
  cases h <;> rfl

theorem accepts_eq (h : IsSizeLetter letter size types) : size.width.accepts = types := by
  cases h <;> rfl

theorem ne_colon (h : IsSizeLetter letter size types) : letter ≠ ':' := by
  cases h <;> decide

end IsSizeLetter

theorem isSizeLetter_of_ofLetter? {letter : Char} {size : Size}
    (h : Size.ofLetter? letter = some size) : IsSizeLetter letter size size.width.accepts := by
  unfold Size.ofLetter? at h
  split at h <;> cases h <;> constructor

theorem isSizeLetter_letter (size : Size) : IsSizeLetter size.letter size size.width.accepts := by
  cases size <;> constructor

theorem canonical_letter (size : Size) : Canonical size.letter := by
  cases size <;> decide

theorem ofLetter?_eq_none_of_isDigit {c : Char} (h : c.isDigit = true) :
    Size.ofLetter? c = none := by
  have := toNat_of_isDigit h
  unfold Size.ofLetter?
  split
  · exact absurd this (by decide)
  · exact absurd this (by decide)
  · exact absurd this (by decide)
  · rfl

end PlcTags.Address
