import Mathlib.Data.List.Basic
import PlcTags.Text.LowerCase

/-!
# Lower cases in ASCII

What is lowered to ASCII was in ASCII, with one exception: the lower case of the Kelvin sign
is a plain `k` (`CaseRun.LeavesAscii`).  A text whose lower case is in ASCII is therefore
lowered letter by letter once its Kelvin signs have been replaced by the letter that they look
like (`lowerCase_of_ascii`); the dotted capital I and the sigma, whose lower cases depend on
more than a letter, do not occur in it.
-/

namespace PlcTags.Text

def IsAscii (c : Char) : Prop :=
  c.toNat < 0x80

instance (c : Char) : Decidable (IsAscii c) :=
  inferInstanceAs (Decidable (_ < _))

/-- The sign of a unit, that is lowered like a letter. -/
def kelvinSign : Char :=
  Char.ofNat 0x212A

/-- The letter that a Kelvin sign looks like, and every other character itself. -/
def plainLetter (c : Char) : Char :=
  if c = kelvinSign then 'K' else c

/-- A name with plain letters for its Kelvin signs. -/
def plainSpelling (name : String) : String :=
  String.ofList (name.toList.map plainLetter)

@[simp] theorem toList_plainSpelling (name : String) :
    (plainSpelling name).toList = name.toList.map plainLetter :=
  String.toList_ofList

theorem plainLetter_of_ne {c : Char} (h : c ≠ kelvinSign) : plainLetter c = c :=
  if_neg h

theorem ne_kelvinSign_of_isAscii {c : Char} (h : IsAscii c) : c ≠ kelvinSign := by
  rintro rfl
  exact absurd h (by decide)

/-- A text without Kelvin signs is spelled plainly. -/
theorem map_plainLetter {text : List Char} (h : kelvinSign ∉ text) :
    text.map plainLetter = text := by
  refine List.map_congr_left (fun c hc => plainLetter_of_ne ?_) |>.trans (List.map_id _)
  rintro rfl
  exact h hc

theorem plainSpelling_of_notMem {name : String} (h : kelvinSign ∉ name.toList) :
    plainSpelling name = name := by
  rw [plainSpelling, map_plainLetter h, String.ofList_toList]

/-! ## Letters -/

namespace CaseRun

/-- No letter of the run is lowered to ASCII, unless it is an ASCII letter or the Kelvin
sign.  The lower cases are valid code points. -/
def LeavesAscii (run : CaseRun) : Prop :=
  run.last < 0x80 ∨ run.first = 0x212A ∧ run.last = 0x212A ∨
    0x80 ≤ run.first + run.shift ∧ run.last + run.shift < 0xD800 ∨
    0xDFFF < run.first + run.shift ∧ run.last + run.shift < 0x110000

instance (run : CaseRun) : Decidable run.LeavesAscii :=
  inferInstanceAs (Decidable (_ ∨ _))

end CaseRun

theorem leavesAscii_of_mem_lowerRuns : ∀ run ∈ lowerRuns, run.LeavesAscii := by
  decide +kernel

/-- A valid code point beyond ASCII is no ASCII character. -/
theorem not_isAscii_ofNat {code : Nat} (hvalid : code.isValidChar) (hcode : 0x80 ≤ code) :
    ¬ IsAscii (Char.ofNat code) := by
  have hcode' : (Char.ofNat code).toNat = code := by
    rw [Char.ofNat, dif_pos hvalid]
    rfl
  rw [IsAscii, hcode']
  exact Nat.not_lt.mpr hcode

theorem CaseRun.LeavesAscii.eq_kelvinSign {run : CaseRun} (h : run.LeavesAscii) {code : Nat}
    (hcovers : run.covers code = true) (hcode : 0x80 ≤ code)
    (hlower : IsAscii (Char.ofNat (run.apply code))) : code = 0x212A := by
  simp only [covers, Bool.and_eq_true, decide_eq_true_eq] at hcovers
  obtain ⟨⟨hfirst, hlast⟩, -⟩ := hcovers
  have hshifted : (run.apply code : Int) = max (code + run.shift) 0 := Int.toNat_eq_max _
  rcases h with hlow | ⟨hfrom, hto⟩ | ⟨hfrom, hto⟩ | ⟨hfrom, hto⟩
  · omega
  · omega
  · exact absurd hlower (not_isAscii_ofNat (.inl (by omega)) (by omega))
  · exact absurd hlower (not_isAscii_ofNat (.inr ⟨by omega, by omega⟩) (by omega))

/-- A letter that is lowered to ASCII is lowered as the plain letter is. -/
theorem lowerLetter_of_ascii_lower {c : Char} (h : ∀ d ∈ lowerLetter c, IsAscii d) :
    lowerLetter c = [(plainLetter c).toLower] := by
  by_cases hascii : IsAscii c
  · rw [lowerLetter_of_ascii hascii, plainLetter_of_ne (ne_kelvinSign_of_isAscii hascii)]
  · have hcode : 0x80 ≤ c.toNat := Nat.not_lt.mp hascii
    unfold lowerLetter at h
    rw [if_neg (Nat.not_lt.mpr hcode)] at h
    split at h
    · exact absurd (h (Char.ofNat 0x307) (by simp)) (by decide)
    · split at h
      · rename_i run hrun
        have hcovers : run.covers c.toNat = true := by
          simpa using List.find?_some hrun
        have hkelvin : c.toNat = 0x212A :=
          (leavesAscii_of_mem_lowerRuns run (List.mem_of_find?_eq_some hrun)).eq_kelvinSign
            hcovers hcode (h _ List.mem_cons_self)
        obtain rfl : c = kelvinSign := Char.toNat_inj.mp hkelvin
        decide +kernel
      · exact absurd (h c List.mem_cons_self) hascii

/-- A letter that is in ASCII when it is plain is lowered as the plain letter is. -/
theorem lowerLetter_of_plain {c : Char} (h : IsAscii (plainLetter c)) :
    lowerLetter c = [(plainLetter c).toLower] := by
  by_cases hkelvin : c = kelvinSign
  · subst hkelvin
    decide +kernel
  · rw [plainLetter_of_ne hkelvin] at h ⊢
    exact lowerLetter_of_ascii h

theorem isAscii_toLower {c : Char} (h : IsAscii c) : IsAscii c.toLower := by
  have hcodes : ∀ code < 0x80, IsAscii (Char.ofNat code).toLower := by decide +kernel
  simpa using hcodes c.toNat h

/-! ## Texts -/

theorem not_isAscii_lowerSigma (before after : List Char) : ¬ IsAscii (lowerSigma before after) := by
  unfold lowerSigma
  split <;> decide

theorem lowerAfter_of_ascii {before text : List Char}
    (h : ∀ c ∈ lowerAfter before text, IsAscii c) :
    lowerAfter before text = (text.map plainLetter).map Char.toLower := by
  -- What stands before a letter matters for a sigma only.
  induction text generalizing before with
  | nil => rfl
  | cons c rest ih =>
      rw [lowerAfter] at h ⊢
      obtain ⟨hfirst, hrest⟩ := List.forall_mem_append.mp h
      split at hfirst
      · exact absurd (hfirst _ List.mem_cons_self) (not_isAscii_lowerSigma before rest)
      · rename_i hsigma
        rw [if_neg hsigma, ih hrest, lowerLetter_of_ascii_lower hfirst]
        rfl

/-- **A text whose lower case is in ASCII is lowered letter by letter**, once its Kelvin signs
are plain letters. -/
theorem lowerCase_of_ascii {text : List Char} (h : ∀ c ∈ lowerCase text, IsAscii c) :
    lowerCase text = (text.map plainLetter).map Char.toLower :=
  lowerAfter_of_ascii h

theorem lowerAfter_of_plain {before text : List Char}
    (h : ∀ c ∈ text.map plainLetter, IsAscii c) :
    lowerAfter before text = (text.map plainLetter).map Char.toLower := by
  induction text generalizing before with
  | nil => rfl
  | cons c rest ih =>
      obtain ⟨hfirst, hrest⟩ := List.forall_mem_cons.mp h
      have hsigma : ¬ (c.toNat == 0x3A3) = true := by
        intro hsigma
        obtain rfl : c = Char.ofNat 0x3A3 := Char.toNat_inj.mp (beq_iff_eq.mp hsigma)
        exact absurd hfirst (by decide)
      rw [lowerAfter, if_neg hsigma, ih hrest, lowerLetter_of_plain hfirst]
      rfl

/-- A text in ASCII but for its Kelvin signs is lowered letter by letter, and to ASCII. -/
theorem lowerCase_of_plain {text : List Char} (h : ∀ c ∈ text.map plainLetter, IsAscii c) :
    lowerCase text = (text.map plainLetter).map Char.toLower ∧
      ∀ c ∈ lowerCase text, IsAscii c := by
  have hlower : lowerCase text = (text.map plainLetter).map Char.toLower := lowerAfter_of_plain h
  refine ⟨hlower, ?_⟩
  rw [hlower]
  exact List.forall_mem_map.mpr fun c hc => isAscii_toLower (h c hc)

/-- Texts with the same lower case have the same plain letters but for their cases, if those of
one are in ASCII. -/
theorem map_toLower_plainLetter {text other : List Char}
    (h : ∀ c ∈ text.map plainLetter, IsAscii c) (hlower : lowerCase other = lowerCase text) :
    (other.map plainLetter).map Char.toLower = (text.map plainLetter).map Char.toLower := by
  obtain ⟨htext, hascii⟩ := lowerCase_of_plain h
  rw [← htext, ← hlower, lowerCase_of_ascii (hlower ▸ hascii)]

end PlcTags.Text
