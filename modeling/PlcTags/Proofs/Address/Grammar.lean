import PlcTags.Address.Any
import PlcTags.Proofs.Address.Beckhoff
import PlcTags.Proofs.Address.Rockwell
import PlcTags.Proofs.Address.Siemens
import PlcTags.Proofs.Text.Trim

/-!
# The grammars of the vendors

A text is read as an address exactly if the grammar of the vendor spells it
(`parse_eq_ok_iff`), and what is said of the address is what the grammar says
(`parse_rockwell_iff`, `parse_siemens_iff`, `parse_beckhoff_iff`).  Reading drops all percent
signs in front of a Siemens address, of which the grammar has one (`parse_doubleSign`).

An element has many spellings.  What is spelled is valid (`Spells.isValid`), and the
canonical spelling of a valid address is one of its spellings (`spells_normalized`); so
reading a canonical spelling again changes nothing (`parse_normalized`), and two texts, of
one vendor or of two, have the same canonical spelling exactly if they spell the same element
(`normalized_eq_iff`).
-/

namespace PlcTags.Address

open Text

/-- The elements that the grammar of their vendor can name. -/
def IsValid : Address → Prop
  | rockwell address => address.IsValid
  | siemens address => address.IsValid
  | beckhoff address => address.IsValid

/-! ## Spellings -/

/-- A text as the grammars look at it: in upper case and without the blanks around it. -/
def spelled (text : String) : List Char :=
  (trim text.toList).map Char.toUpper

/-- A text in upper case spells an address in the grammar of a vendor. -/
inductive Spells : Vendor → List Char → Address → Prop
  | rockwell {text : List Char} {element : Rockwell} {area : Area} {types : List DataType}
      (h : Rockwell.Spells text element area types) : Spells .rockwell text (.rockwell element)
  | siemens {signs : Nat} {text : List Char} {element : Siemens} {area : Area}
      {types : List DataType} (h : Siemens.SpellsBehind signs text element area types) :
      Spells .siemens text (.siemens element)
  | beckhoff {text : List Char} {element : Beckhoff} {area : Area} {location : Option Location}
      {types : List DataType} (h : Beckhoff.Spells text element area location types) :
      Spells .beckhoff text (.beckhoff element)

variable {vendor : Vendor} {text : String} {address : Address}

/-- An empty text is no address of any vendor, so it needs no case of its own. -/
theorem parse_eq_ok_iff_readTrimmed :
    parse vendor text = .ok address ↔ readTrimmed vendor (trim text.toList) = .ok address := by
  unfold parse
  dsimp only
  split
  · rename_i hempty
    rw [List.isEmpty_iff.mp hempty]
    constructor
    · intro h
      cases h
    · intro h
      cases vendor <;> cases h
  · split
    · rename_i hread
      rw [hread, Except.ok.injEq, Except.ok.injEq]
    · rename_i hread
      rw [hread]
      constructor
      · intro h
        cases h
      · intro h
        cases h

/-- **A text is read as an address** exactly if it spells it. -/
theorem parse_eq_ok_iff :
    parse vendor text = .ok address ↔ Spells vendor (spelled text) address := by
  rw [parse_eq_ok_iff_readTrimmed]
  cases vendor with
  | rockwell =>
      rw [readTrimmed, map_eq_ok_iff]
      constructor
      · rintro ⟨element, hread, rfl⟩
        exact .rockwell (Rockwell.spells_of_read hread)
      · intro h
        cases h with
        | rockwell h => exact ⟨_, (Rockwell.read_iff.mpr h).1, rfl⟩
  | siemens =>
      rw [readTrimmed, map_eq_ok_iff]
      constructor
      · rintro ⟨element, hread, rfl⟩
        obtain ⟨signs, h⟩ := Siemens.exists_spellsBehind_of_read hread
        exact .siemens h
      · intro h
        cases h with
        | siemens h => exact ⟨_, (Siemens.read_iff.mpr ⟨_, h⟩).1, rfl⟩
  | beckhoff =>
      rw [readTrimmed, map_eq_ok_iff]
      constructor
      · rintro ⟨element, hread, rfl⟩
        exact .beckhoff (Beckhoff.spells_of_read hread)
      · intro h
        cases h with
        | beckhoff h => exact ⟨_, (Beckhoff.read_iff.mpr h).1, rfl⟩

theorem Spells.isValid {text : List Char} (h : Spells vendor text address) :
    address.vendor = vendor ∧ address.IsValid := by
  cases h with
  | rockwell h => exact ⟨rfl, h.isValid⟩
  | siemens h =>
      obtain ⟨body, -, h⟩ := h
      exact ⟨rfl, h.isValid⟩
  | beckhoff h => exact ⟨rfl, h.isValid⟩

theorem isValid_of_parse (h : parse vendor text = .ok address) :
    address.vendor = vendor ∧ address.IsValid :=
  (parse_eq_ok_iff.mp h).isValid

/-! ## The canonical spelling -/

theorem canonical_of_mem_normalized {address : Address} (hvalid : address.IsValid) {c : Char}
    (h : c ∈ address.normalized.toList) : Canonical c := by
  cases address with
  | rockwell inner =>
      rw [normalized, String.toList_ofList] at h
      exact Rockwell.canonical_render hvalid c h
  | siemens inner =>
      rw [normalized, String.toList_ofList] at h
      exact Siemens.canonical_render inner c h
  | beckhoff inner =>
      rw [normalized, String.toList_ofList] at h
      exact Beckhoff.canonical_render inner c h

theorem trim_normalized {address : Address} (hvalid : address.IsValid) :
    trim address.normalized.toList = address.normalized.toList :=
  trim_of_forall_not_blank fun _ hc => (canonical_of_mem_normalized hvalid hc).isBlank_eq

theorem spelled_normalized (hvalid : address.IsValid) :
    spelled address.normalized = address.normalized.toList := by
  rw [spelled, trim_normalized hvalid,
    map_toUpper_of_canonical fun _ hc => canonical_of_mem_normalized hvalid hc]

/-- The canonical spelling of a valid address is one of its spellings. -/
theorem spells_normalized (hvalid : address.IsValid) :
    Spells address.vendor address.normalized.toList address := by
  cases address with
  | rockwell inner =>
      rw [normalized, String.toList_ofList]
      exact .rockwell (Rockwell.spells_render hvalid)
  | siemens inner =>
      rw [normalized, String.toList_ofList]
      have hbehind : Siemens.SpellsBehind 0 inner.render inner inner.area inner.accepts :=
        ⟨inner.render, rfl, Siemens.spells_render hvalid⟩
      exact .siemens hbehind
  | beckhoff inner =>
      rw [normalized, String.toList_ofList]
      exact .beckhoff (Beckhoff.spells_render hvalid)

/-- A valid address is read back from its canonical spelling. -/
theorem parse_of_isValid {address : Address} (hvalid : address.IsValid) :
    parse address.vendor address.normalized = .ok address := by
  rw [parse_eq_ok_iff, spelled_normalized hvalid]
  exact spells_normalized hvalid

/-- Reading a canonical spelling again changes nothing. -/
theorem parse_normalized {vendor : Vendor} {text : String} {address : Address}
    (h : parse vendor text = .ok address) : parse vendor address.normalized = .ok address := by
  obtain ⟨rfl, hvalid⟩ := isValid_of_parse h
  exact parse_of_isValid hvalid

/-- A colon stands in the addresses of Rockwell alone. -/
theorem colon_mem_normalized_iff (hvalid : address.IsValid) :
    ':' ∈ address.normalized.toList ↔ address.vendor = .rockwell := by
  cases address with
  | rockwell inner =>
      rw [normalized, String.toList_ofList]
      exact iff_of_true (Rockwell.spells_render hvalid).colon_mem rfl
  | siemens inner =>
      rw [normalized, String.toList_ofList]
      exact iff_of_false (Siemens.spells_render hvalid).colon_notMem (fun h => by cases h)
  | beckhoff inner =>
      rw [normalized, String.toList_ofList]
      exact iff_of_false (Beckhoff.spells_render hvalid).colon_notMem (fun h => by cases h)

/-- Of these two vendors, only one has a percent sign in front. -/
theorem siemens_render_ne_beckhoff_render {inner : Siemens} {outer : Beckhoff}
    (hinner : inner.IsValid) (houter : outer.IsValid) : inner.render ≠ outer.render := by
  intro h
  obtain ⟨c, rest, hrender, hc⟩ := (Siemens.spells_render hinner).head_ne
  have hhead := (Beckhoff.spells_render houter).head?_eq
  rw [← h, hrender] at hhead
  exact hc (Option.some.inj hhead)

theorem vendor_eq_of_normalized_eq {address other : Address} (hvalid : address.IsValid)
    (hother : other.IsValid) (h : address.normalized = other.normalized) :
    address.vendor = other.vendor := by
  have hcolon := colon_mem_normalized_iff hvalid
  rw [h, colon_mem_normalized_iff hother] at hcolon
  cases address with
  | rockwell inner => exact (hcolon.mpr rfl).symm
  | siemens inner =>
      cases other with
      | rockwell outer => exact hcolon.mp rfl
      | siemens outer => rfl
      | beckhoff outer =>
          exact absurd (String.ofList_injective h) (siemens_render_ne_beckhoff_render hvalid hother)
  | beckhoff inner =>
      cases other with
      | rockwell outer => exact hcolon.mp rfl
      | siemens outer =>
          exact absurd (String.ofList_injective h).symm
            (siemens_render_ne_beckhoff_render hother hvalid)
      | beckhoff outer => rfl

/-- The canonical spelling tells the valid addresses apart, those of different vendors too. -/
theorem eq_of_normalized_eq {address other : Address} (hvalid : address.IsValid)
    (hother : other.IsValid) (h : address.normalized = other.normalized) : address = other := by
  have hread := parse_of_isValid hvalid
  rw [vendor_eq_of_normalized_eq hvalid hother h, h, parse_of_isValid hother] at hread
  exact (Except.ok.inj hread).symm

/-- A blank text names nothing. -/
theorem parse_of_isAllBlank {vendor : Vendor} {text : String} (h : isAllBlank text = true) :
    parse vendor text = .error .empty := by
  -- The first character that trimming leaves would not be blank.
  have hstart : trimStart text.toList = [] := by
    rcases trimStart_eq_nil_or text.toList with hnil | ⟨c, rest, hcons, hc⟩
    · exact hnil
    · have hsub : c :: rest <:+ text.toList := by
        rw [← hcons]
        exact List.dropWhile_suffix _
      have hmem : c ∈ text.toList := hsub.subset List.mem_cons_self
      rw [List.all_eq_true.mp h c hmem] at hc
      cases hc
  rw [parse, trim, hstart]
  rfl

/-- A text that names an element is not blank. -/
theorem isAllBlank_of_parse {vendor : Vendor} {text : String} {address : Address}
    (h : parse vendor text = .ok address) : isAllBlank text = false := by
  by_contra hblank
  rw [Bool.not_eq_false] at hblank
  cases h.symm.trans (parse_of_isAllBlank hblank)

/-- Blanks around a text do not count. -/
theorem parse_trimmed (vendor : Vendor) (text : String) :
    parse vendor (trimmed text) = parse vendor text := by
  simp only [parse, trimmed, String.toList_ofList, trim_trim]

/-- **Canonical spellings** are read back, with all that is said of the address, and tell
apart what texts spell, be they of one vendor or of two. -/
theorem normalized_eq_iff {otherVendor : Vendor} {other : String} {otherAddress : Address}
    (h : parse vendor text = .ok address) (hother : parse otherVendor other = .ok otherAddress) :
    parse vendor address.normalized = .ok address ∧
      (address.normalized = otherAddress.normalized ↔
        ∃ element, Spells vendor (spelled text) element ∧
          Spells otherVendor (spelled other) element) := by
  refine ⟨parse_normalized h, ?_⟩
  constructor
  · intro hsame
    have heq : address = otherAddress :=
      eq_of_normalized_eq (isValid_of_parse h).2 (isValid_of_parse hother).2 hsame
    exact ⟨address, parse_eq_ok_iff.mp h, heq ▸ parse_eq_ok_iff.mp hother⟩
  · rintro ⟨element, hfirst, hsecond⟩
    -- A text spells one element only, as it is read as that.
    have haddress : address = element :=
      Except.ok.inj (h.symm.trans (parse_eq_ok_iff.mpr hfirst))
    have hotherAddress : otherAddress = element :=
      Except.ok.inj (hother.symm.trans (parse_eq_ok_iff.mpr hsecond))
    rw [haddress, hotherAddress]

/-- Word 0 of a slot, written and not written. -/
theorem normalized_eq_iff_wordZero :
    parse .rockwell " i:01.000/3" = .ok (.rockwell (.wired .input 1 0 (some 3))) ∧
      parse .rockwell "I:1/03" = .ok (.rockwell (.wired .input 1 0 (some 3))) ∧
      parse .rockwell "I:1/3" = .ok (.rockwell (.wired .input 1 0 (some 3))) ∧
      ∃ element, Spells .rockwell (spelled " i:01.000/3") element ∧
        Spells .rockwell (spelled "I:1/03") element := by
  have h : parse .rockwell " i:01.000/3" = .ok (.rockwell (.wired .input 1 0 (some 3))) :=
    eq_ok_of_toOption (by decide +kernel)
  have hother : parse .rockwell "I:1/03" = .ok (.rockwell (.wired .input 1 0 (some 3))) :=
    eq_ok_of_toOption (by decide +kernel)
  have hnormalized : (Address.rockwell (.wired .input 1 0 (some 3))).normalized = "I:1/3" := by
    decide +kernel
  obtain ⟨hback, hsame⟩ := normalized_eq_iff h hother
  rw [hnormalized] at hback
  exact ⟨h, hother, hback, hsame.mp rfl⟩

/-! ## The grammars one by one -/

variable {area : Area} {types : List DataType}

/-- **Rockwell addresses** are the texts that the grammar spells, with the area and the types
that it says. -/
theorem parse_rockwell_iff :
    (parse .rockwell text = .ok address ∧ address.area = area ∧ address.accepts = types) ↔
      ∃ element, address = .rockwell element ∧
        Rockwell.Spells (spelled text) element area types := by
  rw [parse_eq_ok_iff_readTrimmed, readTrimmed, map_eq_ok_iff]
  constructor
  · rintro ⟨⟨element, hread, rfl⟩, rfl, rfl⟩
    exact ⟨element, rfl, Rockwell.spells_of_read hread⟩
  · rintro ⟨element, rfl, h⟩
    obtain ⟨hread, htraits⟩ := Rockwell.read_iff.mpr h
    exact ⟨⟨element, hread, rfl⟩, htraits⟩

/-- **Beckhoff addresses** are the texts that the grammar spells, with the area, the location
and the types that it says. -/
theorem parse_beckhoff_iff {location : Option Location} :
    (parse .beckhoff text = .ok address ∧ address.area = area ∧ address.location? = location ∧
      address.accepts = types) ↔
        ∃ element, address = .beckhoff element ∧
          Beckhoff.Spells (spelled text) element area location types := by
  rw [parse_eq_ok_iff_readTrimmed, readTrimmed, map_eq_ok_iff]
  constructor
  · rintro ⟨⟨element, hread, rfl⟩, rfl, rfl, rfl⟩
    exact ⟨element, rfl, Beckhoff.spells_of_read hread⟩
  · rintro ⟨element, rfl, h⟩
    obtain ⟨hread, htraits⟩ := Beckhoff.read_iff.mpr h
    exact ⟨⟨element, hread, rfl⟩, htraits⟩

theorem parse_eq_ok_iff_spellsBehind :
    (parse .siemens text = .ok address ∧ address.area = area ∧ address.accepts = types) ↔
      ∃ signs element, address = .siemens element ∧
        Siemens.SpellsBehind signs (spelled text) element area types := by
  rw [parse_eq_ok_iff_readTrimmed, readTrimmed, map_eq_ok_iff]
  constructor
  · rintro ⟨⟨element, hread, rfl⟩, rfl, rfl⟩
    obtain ⟨signs, h⟩ := Siemens.exists_spellsBehind_of_read hread
    exact ⟨signs, element, rfl, h⟩
  · rintro ⟨signs, element, rfl, h⟩
    obtain ⟨hread, htraits⟩ := Siemens.read_iff.mpr ⟨signs, h⟩
    exact ⟨⟨element, hread, rfl⟩, htraits⟩

/-- **Siemens addresses** are the texts that the grammar spells behind any number of percent
signs, with the area and the types that it says.  They are the texts that are spelled behind
one percent sign at most, unless two or more of them stand in front of an address. -/
theorem parse_siemens_iff (text : String) :
    (∀ address area types,
      (parse .siemens text = .ok address ∧ address.area = area ∧ address.accepts = types) ↔
        ∃ signs element, address = .siemens element ∧
          Siemens.SpellsBehind signs (spelled text) element area types) ∧
    ((∀ address area types,
      (parse .siemens text = .ok address ∧ address.area = area ∧ address.accepts = types) ↔
        ∃ signs ≤ 1, ∃ element, address = .siemens element ∧
          Siemens.SpellsBehind signs (spelled text) element area types) ↔
      ¬ ∃ signs ≥ 2, ∃ element area types,
        Siemens.SpellsBehind signs (spelled text) element area types) := by
  refine ⟨fun address area types => parse_eq_ok_iff_spellsBehind, ?_⟩
  constructor
  · rintro hone ⟨signs, htwo, element, area, types, h⟩
    have hread := parse_eq_ok_iff_spellsBehind.mpr ⟨signs, element, rfl, h⟩
    obtain ⟨others, hothers, _, -, hspells⟩ := (hone _ _ _).mp hread
    -- The percent signs in front of a text are counted in one way only.
    have hsame : others = signs := hspells.signs_eq.trans h.signs_eq.symm
    omega
  · intro htwo address area types
    rw [parse_eq_ok_iff_spellsBehind]
    constructor
    · rintro ⟨signs, element, heq, h⟩
      have hone : ¬ 2 ≤ signs := fun hsigns => htwo ⟨signs, hsigns, element, area, types, h⟩
      exact ⟨signs, by omega, element, heq, h⟩
    · rintro ⟨signs, -, element, heq, h⟩
      exact ⟨signs, element, heq, h⟩

/-- An address behind two percent signs is read, although it is spelled behind no fewer. -/
theorem parse_doubleSign :
    parse .siemens "%%I0.0" = .ok (.siemens (.bit .input 0 0)) ∧
      ¬ ∃ signs ≤ 1, ∃ element area types,
        Siemens.SpellsBehind signs (spelled "%%I0.0") element area types := by
  refine ⟨eq_ok_of_toOption (by decide +kernel), ?_⟩
  rintro ⟨signs, hone, element, area, types, h⟩
  have hsigns : ((spelled "%%I0.0").takeWhile (· == '%')).length = 2 := by
    decide +kernel
  have hsame := h.signs_eq
  omega

end PlcTags.Address
