import Mathlib
import PlcTags.Dialect
import PlcTags.Proofs.Address.Numeral
import PlcTags.Proofs.Container.Sniff
import PlcTags.Proofs.Text.LowerCase
import PlcTags.Proofs.Text.Trim

/-!
# Admitted names

No vendor admits a blank name (`isAllBlank_of_admitsName`), and none minds the blanks at
the ends of a name (`admitsName_trimmed`).  For identifiers there are none; a Siemens name
only gets shorter without them.

Names with one key are the same letters in different cases, wherever all of them are ASCII
letters or Kelvin signs.  So what a vendor says to one of them it says to the others, but for
the Kelvin signs in them (`admitsName_plainSpelling`).
-/

namespace PlcTags

open Text

namespace Vendor

variable {vendor : Vendor} {name : String}

theorem toNat_of_isAlphanum {c : Char} (h : (c.isAlphanum || c == '_') = true) :
    48 ≤ c.toNat ∧ c.toNat < 123 := by
  rcases Bool.or_eq_true_iff.mp h with halphanum | hunderscore
  · rcases Bool.or_eq_true_iff.mp halphanum with halpha | hdigit
    · have := Container.Format.toNat_of_isAlpha halpha
      omega
    · have := Address.toNat_of_isDigit hdigit
      omega
  · obtain rfl := beq_iff_eq.mp hunderscore
    decide

/-- A character of an identifier is no blank. -/
theorem isBlank_of_isAlphanum {c : Char} (h : (c.isAlphanum || c == '_') = true) :
    isBlank c = false := by
  have hrange := toNat_of_isAlphanum h
  simp only [isBlank, Bool.or_eq_false_iff, Bool.and_eq_false_iff, decide_eq_false_iff_not,
    beq_eq_false_iff_ne, ne_eq]
  omega

theorem isAlphanum_of_isIdentifier {text : List Char} (h : isIdentifier text = true) :
    text ≠ [] ∧ ∀ c ∈ text, (c.isAlphanum || c == '_') = true := by
  cases text with
  | nil => cases h
  | cons first rest =>
      obtain ⟨hfirst, hrest⟩ := Bool.and_eq_true_iff.mp h
      refine ⟨List.cons_ne_nil _ _, List.forall_mem_cons.mpr ⟨?_, List.all_eq_true.mp hrest⟩⟩
      rw [Char.isAlphanum]
      rcases Bool.or_eq_true_iff.mp hfirst with halpha | hunderscore
      · rw [halpha]
        rfl
      · rw [hunderscore, Bool.or_true]

theorem not_blank_of_isIdentifier {text : List Char} (h : isIdentifier text = true) :
    text ≠ [] ∧ ∀ c ∈ text, isBlank c = false :=
  ⟨(isAlphanum_of_isIdentifier h).1,
    fun c hc => isBlank_of_isAlphanum ((isAlphanum_of_isIdentifier h).2 c hc)⟩

/-- The names of all vendors but Siemens are identifiers. -/
theorem isIdentifier_of_admitsName (hvendor : vendor ≠ .siemens)
    (h : vendor.admitsName name = true) : isIdentifier name.toList = true := by
  cases vendor with
  | rockwell =>
      simp only [admitsName, Bool.and_eq_true] at h
      exact h.1.1.1
  | siemens => exact absurd rfl hvendor
  | beckhoff => exact h

/-- No vendor admits a blank name. -/
theorem isAllBlank_of_admitsName (h : vendor.admitsName name = true) :
    isAllBlank name = false := by
  by_cases hvendor : vendor = .siemens
  · subst hvendor
    simp only [admitsName, Bool.and_eq_true, Bool.not_eq_true'] at h
    exact h.1.1
  · obtain ⟨hne, hfilled⟩ := not_blank_of_isIdentifier (isIdentifier_of_admitsName hvendor h)
    obtain ⟨c, hc⟩ := List.exists_mem_of_ne_nil _ hne
    exact List.all_eq_false.mpr ⟨c, hc, by rw [hfilled c hc]; exact Bool.false_ne_true⟩

/-- A name that is admitted stays so without the blanks at its ends. -/
theorem admitsName_trimmed (h : vendor.admitsName name = true) :
    vendor.admitsName (trimmed name) = true := by
  by_cases hvendor : vendor = .siemens
  · subst hvendor
    have hsublist := sublist_trim name.toList
    simp only [admitsName, trimmed, String.toList_ofList, Bool.and_eq_true, Bool.not_eq_true',
      decide_eq_true_eq, allBlank_trim] at h ⊢
    obtain ⟨⟨hfilled, hlength⟩, hplain⟩ := h
    refine ⟨⟨hfilled, Nat.le_trans hsublist.length_le hlength⟩, List.all_eq_true.mpr ?_⟩
    exact fun c hc => List.all_eq_true.mp hplain c (hsublist.subset hc)
  · obtain ⟨-, hfilled⟩ := not_blank_of_isIdentifier (isIdentifier_of_admitsName hvendor h)
    have hsame : Trimmed name := trimmed_of_toList (trim_of_forall_not_blank hfilled)
    rwa [hsame]

/-! ## Names with one key -/

theorem isAlphanum_toLower (c : Char) : c.toLower.isAlphanum = c.isAlphanum := by
  unfold Char.isAlphanum
  rw [Char.isAlpha_toLower_eq_isAlpha]
  by_cases hupper : c.isUpper = true
  · have halpha : c.isAlpha = true := by rw [Char.isAlpha, hupper, Bool.true_or]
    rw [halpha, Bool.true_or, Bool.true_or]
  · rw [Char.toLower_eq_of_not_isUpper hupper]

theorem toLower_eq_underscore_iff (c : Char) : c.toLower = '_' ↔ c = '_' := by
  by_cases hupper : c.isUpper = true
  · have hlower : c.toLower.isLower = true := by
      rw [Char.isLower_toLower_eq_isAlpha, Char.isAlpha, hupper, Bool.true_or]
    constructor
    · intro h
      rw [h] at hlower
      exact absurd hlower (by decide)
    · rintro rfl
      exact absurd hupper (by decide)
  · rw [Char.toLower_eq_of_not_isUpper hupper]

theorem beq_underscore_toLower (c : Char) : (c.toLower == '_') = (c == '_') := by
  rw [Bool.eq_iff_iff, beq_iff_eq, beq_iff_eq, toLower_eq_underscore_iff]

theorem isIdentifier_map_toLower (text : List Char) :
    isIdentifier (text.map Char.toLower) = isIdentifier text := by
  cases text with
  | nil => rfl
  | cons first rest =>
      simp only [List.map_cons, isIdentifier, List.all_map, Function.comp_def,
        Char.isAlpha_toLower_eq_isAlpha, isAlphanum_toLower, beq_underscore_toLower]

theorem hasDoubleUnderscore_map_toLower (text : List Char) :
    hasDoubleUnderscore (text.map Char.toLower) = hasDoubleUnderscore text := by
  fun_induction hasDoubleUnderscore text with
  | case1 rest => rfl
  | case2 c rest hother ih =>
      have hother' : ∀ tail, c.toLower = '_' → rest.map Char.toLower = '_' :: tail → False := by
        intro tail hc hrest
        obtain ⟨d, tail, rfl, hd, -⟩ := List.map_eq_cons_iff.mp hrest
        rw [toLower_eq_underscore_iff] at hc hd
        exact hother tail hc (by rw [hd])
      rw [List.map_cons, hasDoubleUnderscore.eq_2 _ _ hother', ih]
  | case3 => rfl

theorem getLast?_map_toLower (text : List Char) :
    ((text.map Char.toLower).getLast? != some '_') = (text.getLast? != some '_') := by
  rw [List.getLast?_map]
  cases text.getLast? with
  | none => rfl
  | some c => exact congrArg Bool.not (beq_underscore_toLower c)

/-- All vendors but Siemens look at the letters of a name and not at their cases. -/
theorem admitsName_congr {other : String} (hvendor : vendor ≠ .siemens)
    (h : name.toList.map Char.toLower = other.toList.map Char.toLower) :
    vendor.admitsName name = vendor.admitsName other := by
  have hidentifier := congrArg isIdentifier h
  rw [isIdentifier_map_toLower, isIdentifier_map_toLower] at hidentifier
  cases vendor with
  | siemens => exact absurd rfl hvendor
  | beckhoff => exact hidentifier
  | rockwell =>
      have hlength := congrArg List.length h
      have hdouble := congrArg hasDoubleUnderscore h
      have hlast := congrArg (fun text : List Char => text.getLast? != some '_') h
      rw [List.length_map, List.length_map] at hlength
      rw [hasDoubleUnderscore_map_toLower, hasDoubleUnderscore_map_toLower] at hdouble
      simp only [getLast?_map_toLower] at hlast
      simp only [admitsName, hidentifier, hlength, hdouble, hlast]

/-- To Siemens a Kelvin sign is as good as a letter. -/
theorem siemens_admitsName_plainSpelling (name : String) :
    siemens.admitsName (plainSpelling name) = siemens.admitsName name := by
  have hblank : ∀ c, isBlank (plainLetter c) = isBlank c := by
    intro c
    by_cases hkelvin : c = kelvinSign
    · subst hkelvin
      decide
    · rw [plainLetter_of_ne hkelvin]
  have hplain : ∀ c, (plainLetter c != '"' && !isControl (plainLetter c)) =
      (c != '"' && !isControl c) := by
    intro c
    by_cases hkelvin : c = kelvinSign
    · subst hkelvin
      decide
    · rw [plainLetter_of_ne hkelvin]
  simp only [admitsName, toList_plainSpelling, allBlank, List.all_map, List.length_map,
    Function.comp_def, hblank, hplain]

theorem isAscii_of_isIdentifier {text : List Char} (h : isIdentifier text = true) :
    ∀ c ∈ text, IsAscii c :=
  fun c hc => Nat.lt_trans (toNat_of_isAlphanum ((isAlphanum_of_isIdentifier h).2 c hc)).2
    (by decide)

/-- There is no Kelvin sign in an identifier. -/
theorem kelvinSign_notMem (h : isIdentifier name.toList = true) :
    kelvinSign ∉ name.toList :=
  fun hmem => ne_kelvinSign_of_isAscii (isAscii_of_isIdentifier h _ hmem) rfl

/-- An identifier is a name for Siemens if it is not too long. -/
theorem siemens_admitsName_of_isIdentifier (h : isIdentifier name.toList = true)
    (hlength : name.toList.length ≤ 128) : siemens.admitsName name = true := by
  obtain ⟨hne, hfilled⟩ := not_blank_of_isIdentifier h
  simp only [admitsName, Bool.and_eq_true, Bool.not_eq_true', decide_eq_true_eq]
  refine ⟨⟨?_, hlength⟩, List.all_eq_true.mpr fun c hc => ?_⟩
  · obtain ⟨c, hc⟩ := List.exists_mem_of_ne_nil _ hne
    exact List.all_eq_false.mpr ⟨c, hc, by rw [hfilled c hc]; exact Bool.false_ne_true⟩
  · have hrange := toNat_of_isAlphanum ((isAlphanum_of_isIdentifier h).2 c hc)
    have hquote : c ≠ '"' := by
      rintro rfl
      exact absurd hrange.1 (by decide)
    simp only [isControl, Bool.and_eq_true, bne_iff_ne, Bool.not_eq_true', Bool.or_eq_false_iff,
      Bool.and_eq_false_iff, decide_eq_false_iff_not]
    exact ⟨hquote, by omega, by omega⟩

/-- A name that is admitted is admitted in its plain spelling. -/
theorem admitsName_plainSpelling_of_admitsName (h : vendor.admitsName name = true) :
    vendor.admitsName (plainSpelling name) = true := by
  by_cases hvendor : vendor = .siemens
  · subst hvendor
    rwa [siemens_admitsName_plainSpelling]
  · rwa [plainSpelling_of_notMem (kelvinSign_notMem (isIdentifier_of_admitsName hvendor h))]

/-- A stored name whose plain spelling one vendor admits, and a name with the same key that
another vendor admits: the other vendor admits the plain spelling too. -/
theorem admitsName_plainSpelling {first : Vendor} {stored : String} (htrimmed : Trimmed stored)
    (hfirst : first.admitsName (plainSpelling stored) = true) (h : vendor.admitsName name = true)
    (hkey : nameKey name = nameKey stored) : vendor.admitsName (plainSpelling stored) = true := by
  have hstored : trim stored.toList = stored.toList := by
    have := congrArg String.toList htrimmed
    rwa [trimmed, String.toList_ofList] at this
  have hlower : lowerCase (trim name.toList) = lowerCase stored.toList := by
    have := congrArg String.toList hkey
    rwa [nameKey, nameKey, String.toList_ofList, String.toList_ofList, hstored] at this
  by_cases hvendor : vendor = .siemens
  · subst hvendor
    by_cases hsame : first = .siemens
    · subst hsame
      exact hfirst
    · -- Only the length is in question, and the key has the length of both names.
      have hidentifier := isIdentifier_of_admitsName hsame hfirst
      have hplain := isAscii_of_isIdentifier hidentifier
      rw [toList_plainSpelling] at hplain
      have hletters := congrArg List.length (map_toLower_plainLetter hplain hlower)
      simp only [List.length_map] at hletters
      simp only [admitsName, Bool.and_eq_true, decide_eq_true_eq] at h
      refine siemens_admitsName_of_isIdentifier hidentifier ?_
      rw [toList_plainSpelling, List.length_map, ← hletters]
      exact Nat.le_trans (sublist_trim name.toList).length_le h.1.2
  · have hidentifier := isIdentifier_of_admitsName hvendor h
    have htrim := trim_of_forall_not_blank (not_blank_of_isIdentifier hidentifier).2
    have hplain := map_plainLetter (kelvinSign_notMem hidentifier)
    rw [htrim] at hlower
    rw [← h]
    refine admitsName_congr hvendor ?_
    rw [toList_plainSpelling, ← hplain]
    refine map_toLower_plainLetter ?_ hlower.symm
    rw [hplain]
    exact isAscii_of_isIdentifier hidentifier

/-- What is wrong with a name whose plain spelling is admitted can only be a Kelvin sign. -/
theorem admitsName_iff_of_plainSpelling (h : vendor.admitsName (plainSpelling name) = true) :
    vendor.admitsName name = true ↔ vendor = .siemens ∨ kelvinSign ∉ name.toList := by
  constructor
  · intro hadmits
    refine Decidable.or_iff_not_imp_left.mpr fun hvendor => ?_
    exact kelvinSign_notMem (isIdentifier_of_admitsName hvendor hadmits)
  · rintro (rfl | hplain)
    · rwa [siemens_admitsName_plainSpelling] at h
    · rwa [plainSpelling_of_notMem hplain] at h

end Vendor

end PlcTags
