import PlcTags.Proofs.Address.Location
import PlcTags.Proofs.Tag.Preparation
import PlcTags.Tag.Translate

/-!
# Translation between vendors

An address is translated through its location in the image.  What a vendor writes for a
location is read back as an address of this location, so everything that the location
decides is kept (`translateAddress_keeps_location`).

The way back leads to the name that the first vendor writes for the location
(`translateAddress_back`).  This is the address that one came from, except for the
second names of the memory image: the bits of `N7` come back as bits of `B3`, and the
words of `B3` as words of `N7` (`translateAddress_merges_files`).

Which addresses have a translation is a matter of their locations alone, and of what the
other vendor can reach (`translateAddress_domain`).  The types and the area of an address
belong to the location too.  So the translation of a tag that validation has nothing against
gives it nothing new to object to either, the name apart (`Tag.translate_keeps_validity`).
-/

namespace PlcTags

variable {text : String} {source target : Vendor} {address translated : Address}

/-- The location decides what becomes of an address. -/
theorem translateAddress_eq (hparse : Address.parse source text = .ok address)
    (hdistinct : source ≠ target) :
    translateAddress text source target =
      match address.location?.bind (Address.ofLocation? target) with
      | some translated => .ok translated
      | none => .error (.noEquivalent text target) := by
  have hvendor := (Address.isValid_of_parse hparse).1
  have hother : address.vendor ≠ target := hvendor ▸ hdistinct
  have hconvert : address.convert? target =
      address.location?.bind (Address.ofLocation? target) := if_neg hother
  rw [← hconvert]
  cases htranslated : address.convert? target with
  | none => simp only [translateAddress, hparse, htranslated]
  | some translated => simp only [translateAddress, hparse, htranslated]

/-- The fault of a text that cannot be read is passed on, and no other text has one like it. -/
theorem translateAddress_eq_unreadable_iff {fault : Address.Error} :
    translateAddress text source target = .error (.unreadable fault) ↔
      Address.parse source text = .error fault := by
  unfold translateAddress
  cases Address.parse source text with
  | error other => simp only [Except.error.injEq, TranslateError.unreadable.injEq]
  | ok address =>
      dsimp only
      cases address.convert? target with
      | none => exact iff_of_false (fun h => by cases h) (fun h => by cases h)
      | some translated => exact iff_of_false (fun h => by cases h) (fun h => by cases h)

/-- A translation is the address that the other vendor has for the location. -/
theorem location?_of_translateAddress (hdistinct : source ≠ target)
    (h : translateAddress text source target = .ok translated) :
    ∃ address location, Address.parse source text = .ok address ∧
      address.location? = some location ∧
        Address.ofLocation? target location = some translated := by
  cases hparse : Address.parse source text with
  | error fault =>
      rw [translateAddress, hparse] at h
      cases h
  | ok address =>
      rw [translateAddress_eq hparse hdistinct] at h
      split at h
      · rename_i found hfound
        obtain rfl := Except.ok.inj h
        obtain ⟨location, hlocation, hfound⟩ := Option.bind_eq_some_iff.mp hfound
        exact ⟨address, location, rfl, hlocation, hfound⟩
      · cases h

/-- A translation is read back from its canonical spelling, as an address of the same
location. -/
theorem parse_of_translateAddress {location : Address.Location}
    (hparse : Address.parse source text = .ok address)
    (hlocation : address.location? = some location)
    (hfound : Address.ofLocation? target location = some translated) :
    Address.parse target translated.normalized = .ok translated ∧
      translated.Agrees location := by
  have hvalid := (Address.isValid_of_parse hparse).2
  obtain ⟨hlocationValid, -, -⟩ := Address.agrees_of_location? hvalid hlocation
  obtain ⟨rfl, htranslatedValid, htranslated⟩ :=
    Address.location?_of_ofLocation? hlocationValid hfound
  exact ⟨Address.parse_of_isValid htranslatedValid,
    (Address.agrees_of_location? htranslatedValid htranslated).2.1⟩

/-! ## What has a translation -/

theorem exists_translateAddress_iff (hparse : Address.parse source text = .ok address)
    (hdistinct : source ≠ target) :
    (∃ translated, translateAddress text source target = .ok translated) ↔
      ∃ location, address.location? = some location ∧ Address.Reaches target location := by
  constructor
  · rintro ⟨translated, h⟩
    obtain ⟨same, location, hsame, hlocation, hfound⟩ := location?_of_translateAddress hdistinct h
    obtain rfl := Except.ok.inj (hparse.symm.trans hsame)
    exact ⟨location, hlocation, Address.exists_ofLocation?_iff.mp ⟨translated, hfound⟩⟩
  · rintro ⟨location, hlocation, hreaches⟩
    obtain ⟨translated, hfound⟩ := Address.exists_ofLocation?_iff.mpr hreaches
    refine ⟨translated, ?_⟩
    rw [translateAddress_eq hparse hdistinct, hlocation, Option.bind_some, hfound]

/-- There is one way only to fail for an address that can be read. -/
theorem translateAddress_cases (target : Vendor)
    (hparse : Address.parse source text = .ok address) :
    (∃ translated, translateAddress text source target = .ok translated) ∨
      translateAddress text source target = .error (.noEquivalent text target) := by
  cases hconvert : address.convert? target with
  | some translated => exact .inl ⟨translated, by simp only [translateAddress, hparse, hconvert]⟩
  | none => exact .inr (by simp only [translateAddress, hparse, hconvert])

/-- **The domain of translation.**  The text is at fault exactly if its vendor cannot read it.
Otherwise it is the address of an element, and has a translation exactly if there is a
location for it within reach of the other vendor: for Rockwell a bit or a word of its slots or
of one file, for the others any location.  If not, there is no equivalent of the text, which
is reported as it stands. -/
theorem translateAddress_domain (hdistinct : source ≠ target) (text : String) :
    (∀ fault, translateAddress text source target = .error (.unreadable fault) ↔
      Address.parse source text = .error fault) ∧
    ∀ address, Address.parse source text = .ok address →
      ((∃ translated, translateAddress text source target = .ok translated) ↔
        ∃ location, address.location? = some location ∧ Address.Reaches target location) ∧
      ((¬ ∃ location, address.location? = some location ∧ Address.Reaches target location) ↔
        translateAddress text source target = .error (.noEquivalent text target)) := by
  refine ⟨fun fault => translateAddress_eq_unreadable_iff, fun address hparse => ?_⟩
  have hexists := exists_translateAddress_iff hparse hdistinct
  refine ⟨hexists, ?_⟩
  rw [← hexists]
  rcases translateAddress_cases target hparse with ⟨translated, htranslated⟩ | hnone
  · rw [htranslated]
    exact iff_of_false (fun hnot => hnot ⟨translated, rfl⟩) (fun h => by cases h)
  · rw [hnone]
    exact iff_of_true (fun ⟨translated, h⟩ => by cases h) rfl

/-- The last byte of the slots, and the one behind it. -/
theorem translateAddress_domain_lastSlot :
    (∃ translated, translateAddress "e061.7" .siemens .rockwell = .ok translated) ∧
      translateAddress "e062.0" .siemens .rockwell = .error (.noEquivalent "e062.0" .rockwell) := by
  have hlast : Address.parse .siemens "e061.7" = .ok (.siemens (.bit .input 61 7)) :=
    eq_ok_of_toOption (by decide +kernel)
  have hbehind : Address.parse .siemens "e062.0" = .ok (.siemens (.bit .input 62 0)) :=
    eq_ok_of_toOption (by decide +kernel)
  refine ⟨((translateAddress_domain (by decide) "e061.7").2 _ hlast).1.mpr ?_,
    ((translateAddress_domain (by decide) "e062.0").2 _ hbehind).2.mp ?_⟩
  · exact ⟨⟨.input, 61, .bit 7⟩, rfl, .wiredBit (by decide) (by decide)⟩
  · rintro ⟨location, hlocation, hreaches⟩
    obtain rfl := Option.some.inj hlocation
    cases hreaches with
    | wiredBit harea hbyte => exact absurd hbyte (by decide)

/-! ## What a translation keeps -/

/-- **Translation keeps the location.**  The translation is read by the other vendor as
it stands, and agrees with the address in its location, its area and the types that it
can hold; so any third vendor has the same translation of both, or none of either. -/
theorem translateAddress_keeps_location (hdistinct : source ≠ target)
    (h : translateAddress text source target = .ok translated) :
    ∃ address location, Address.parse source text = .ok address ∧
      Address.parse target translated.normalized = .ok translated ∧
      address.location? = some location ∧ translated.location? = some location ∧
      translated.area = address.area ∧ translated.accepts = address.accepts ∧
      ∀ third, third ≠ source → third ≠ target →
        (∃ other, translateAddress text source third = .ok other ∧
          translateAddress translated.normalized target third = .ok other) ∨
        (translateAddress text source third = .error (.noEquivalent text third) ∧
          translateAddress translated.normalized target third =
            .error (.noEquivalent translated.normalized third)) := by
  obtain ⟨address, location, hparse, hlocation, hfound⟩ :=
    location?_of_translateAddress hdistinct h
  obtain ⟨hread, hagrees⟩ := parse_of_translateAddress hparse hlocation hfound
  obtain ⟨-, haddress, -⟩ :=
    Address.agrees_of_location? (Address.isValid_of_parse hparse).2 hlocation
  refine ⟨address, location, hparse, hread, hlocation, hagrees.location?,
    hagrees.area.trans haddress.area.symm, hagrees.accepts.trans haddress.accepts.symm, ?_⟩
  intro third hsource htarget
  rw [translateAddress_eq hparse (Ne.symm hsource), translateAddress_eq hread (Ne.symm htarget),
    hlocation, hagrees.location?, Option.bind_some]
  cases Address.ofLocation? third location with
  | none => exact .inr ⟨rfl, rfl⟩
  | some other => exact .inl ⟨other, rfl, rfl⟩

/-- A bit in the upper byte of a slot, in a spelling that is not the canonical one. -/
theorem translateAddress_keeps_upperByte :
    translateAddress " i:01.0/11" .rockwell .beckhoff = .ok (.beckhoff (.bit .input 3 3)) ∧
      ∃ address location, Address.parse .rockwell " i:01.0/11" = .ok address ∧
        Address.parse .beckhoff "%IX3.3" = .ok (.beckhoff (.bit .input 3 3)) ∧
        address.location? = some location ∧ location = ⟨.input, 3, .bit 3⟩ ∧
        address.area = .input ∧ address.accepts = [.bool] ∧
        ((∃ other, translateAddress " i:01.0/11" .rockwell .siemens = .ok other ∧
          translateAddress "%IX3.3" .beckhoff .siemens = .ok other) ∨
        (translateAddress " i:01.0/11" .rockwell .siemens =
            .error (.noEquivalent " i:01.0/11" .siemens) ∧
          translateAddress "%IX3.3" .beckhoff .siemens =
            .error (.noEquivalent "%IX3.3" .siemens))) := by
  have h : translateAddress " i:01.0/11" .rockwell .beckhoff =
      .ok (.beckhoff (.bit .input 3 3)) := eq_ok_of_toOption (by decide +kernel)
  have hspelling : (Address.beckhoff (.bit .input 3 3)).normalized = "%IX3.3" := by
    decide +kernel
  obtain ⟨address, location, hparse, hread, hlocation, hsame, harea, haccepts, hthird⟩ :=
    translateAddress_keeps_location (by decide) h
  rw [hspelling] at hread hthird
  exact ⟨h, address, location, hparse, hread, hlocation, (Option.some.inj hsame).symm,
    harea.symm, haccepts.symm, hthird .siemens (by decide) (by decide)⟩

/-! ## There and back -/

/-- **Translation and back** leads to the name that the vendor writes for the location.
It is the address itself unless that is a second name; and only names of one element have
the same translation. -/
theorem translateAddress_back (hdistinct : source ≠ target)
    (hparse : Address.parse source text = .ok address)
    (h : translateAddress text source target = .ok translated) :
    translateAddress translated.normalized target source = .ok address.primary ∧
      (address.primary.normalized = address.normalized ↔ address.IsSecondary = false) ∧
      ∀ otherText other, Address.parse source otherText = .ok other →
        translateAddress otherText source target = .ok translated →
          other.primary = address.primary := by
  -- What is written for the location is the primary name of all that have this translation.
  have hback : ∀ otherText other, Address.parse source otherText = .ok other →
      translateAddress otherText source target = .ok translated →
        translateAddress translated.normalized target source = .ok other.primary := by
    intro otherText other hother hothers
    obtain ⟨same, location, hsame, hlocation, hfound⟩ :=
      location?_of_translateAddress hdistinct hothers
    obtain rfl := Except.ok.inj (hother.symm.trans hsame)
    obtain ⟨hread, hagrees⟩ := parse_of_translateAddress hother hlocation hfound
    obtain ⟨rfl, hvalid⟩ := Address.isValid_of_parse hother
    obtain ⟨-, -, hprimary⟩ := Address.agrees_of_location? hvalid hlocation
    rw [translateAddress_eq hread (Ne.symm hdistinct), hagrees.location?, Option.bind_some,
      hprimary]
  refine ⟨hback text address hparse h, ?_, ?_⟩
  · obtain ⟨same, location, hsame, hlocation, -⟩ := location?_of_translateAddress hdistinct h
    obtain rfl := Except.ok.inj (hparse.symm.trans hsame)
    exact Address.normalized_primary_eq_iff (Address.isValid_of_parse hparse).2 hlocation
  · intro otherText other hother hothers
    exact Except.ok.inj ((hback otherText other hother hothers).symm.trans
      (hback text address hparse h))

/-- The way back from a primary name. -/
theorem translateAddress_back_upperBit :
    Address.parse .rockwell "B3:004/9" = .ok (.rockwell (.file .binary 3 4 (.bit 9))) ∧
      translateAddress "B3:004/9" .rockwell .siemens = .ok (.siemens (.bit .memory 9 1)) ∧
      translateAddress "M9.1" .siemens .rockwell =
        .ok (.rockwell (.file .binary 3 4 (.bit 9))) := by
  have hparse : Address.parse .rockwell "B3:004/9" =
      .ok (.rockwell (.file .binary 3 4 (.bit 9))) := eq_ok_of_toOption (by decide +kernel)
  have h : translateAddress "B3:004/9" .rockwell .siemens =
      .ok (.siemens (.bit .memory 9 1)) := eq_ok_of_toOption (by decide +kernel)
  have hspelling : (Address.siemens (.bit .memory 9 1)).normalized = "M9.1" := by
    decide +kernel
  obtain ⟨hback, -, -⟩ := translateAddress_back (by decide) hparse h
  rw [hspelling] at hback
  exact ⟨hparse, h, hback⟩

/-- A bit of `N7` has the same translation as the bit of `B3`, and comes back as that. -/
theorem translateAddress_merges_files :
    translateAddress "N7:4/9" .rockwell .siemens = .ok (.siemens (.bit .memory 9 1)) ∧
      translateAddress "B3:4/9" .rockwell .siemens = .ok (.siemens (.bit .memory 9 1)) ∧
      translateAddress "M9.1" .siemens .rockwell =
        .ok (.rockwell (.file .binary 3 4 (.bit 9))) ∧
      Address.parse .rockwell "N7:4/9" = .ok (.rockwell (.file .integer 7 4 (.bit 9))) ∧
      (Address.siemens (.bit .memory 9 1)).normalized = "M9.1" ∧
      (Address.rockwell (.file .integer 7 4 (.bit 9))).normalized = "N7:4/9" ∧
      (Address.rockwell (.file .binary 3 4 (.bit 9))).normalized = "B3:4/9" :=
  ⟨eq_ok_of_toOption (by decide +kernel), eq_ok_of_toOption (by decide +kernel),
    eq_ok_of_toOption (by decide +kernel), eq_ok_of_toOption (by decide +kernel),
    by decide +kernel, by decide +kernel, by decide +kernel⟩

/-! ## Tags -/

/-- For the vendor itself an address is translated to itself. -/
theorem translateAddress_same (hparse : Address.parse source text = .ok address) :
    translateAddress text source source = .ok address := by
  have hsame : address.convert? source = some address :=
    if_pos (Address.isValid_of_parse hparse).1
  simp only [translateAddress, hparse, hsame]

/-- A translation is read back by its vendor, and says the same as the address. -/
theorem exists_of_translateAddress (h : translateAddress text source target = .ok translated) :
    ∃ address, Address.parse source text = .ok address ∧
      Address.parse target translated.normalized = .ok translated ∧
      translated.area = address.area ∧ translated.accepts = address.accepts := by
  by_cases hdistinct : source = target
  · subst hdistinct
    cases hparse : Address.parse source text with
    | error fault =>
        rw [translateAddress_eq_unreadable_iff.mpr hparse] at h
        cases h
    | ok address =>
        obtain rfl := Except.ok.inj ((translateAddress_same hparse).symm.trans h)
        exact ⟨address, rfl, Address.parse_normalized hparse, rfl, rfl⟩
  · obtain ⟨address, location, hparse, hlocation, hfound⟩ :=
      location?_of_translateAddress hdistinct h
    obtain ⟨hread, hagrees⟩ := parse_of_translateAddress hparse hlocation hfound
    obtain ⟨-, haddress, -⟩ :=
      Address.agrees_of_location? (Address.isValid_of_parse hparse).2 hlocation
    exact ⟨address, hparse, hread, hagrees.area.trans haddress.area.symm,
      hagrees.accepts.trans haddress.accepts.symm⟩

namespace Tag

variable {tag : Tag}

/-- The tag for another vendor, with an address of that vendor. -/
def movedTo (tag : Tag) (target : Vendor) (address : String) : Tag :=
  { tag with vendor := target, address := address }

theorem translate_of_blank (hblank : tag.hasAddress = false) (target : Vendor) :
    tag.translate target = .ok (tag.movedTo target tag.address) := by
  rw [translate, hblank]
  rfl

/-- A type that the address can hold is one that its translation can hold. -/
theorem translate_of_holds (hparse : Address.parse tag.vendor tag.address = .ok address)
    (hholds : tag.dataType ∈ address.accepts)
    (htranslated : translateAddress tag.address tag.vendor target = .ok translated) :
    tag.translate target = .ok (tag.movedTo target translated.normalized) := by
  obtain ⟨same, hsame, -, -, haccepts⟩ := exists_of_translateAddress htranslated
  obtain rfl := Except.ok.inj (hparse.symm.trans hsame)
  rw [translate, hasAddress_of_parse hparse, htranslated]
  exact if_pos (haccepts ▸ hholds)

theorem translate_of_error {fault : TranslateError}
    (hparse : Address.parse tag.vendor tag.address = .ok address)
    (hfault : translateAddress tag.address tag.vendor target = .error fault) :
    tag.translate target = .error fault := by
  rw [translate, hasAddress_of_parse hparse, hfault]
  rfl

/-- The type may as well be checked against what the spelling of the translation is read
back as: reading it cannot fail, and the types are the same. -/
theorem translate_eq_reread (hfilled : tag.hasAddress = true) (target : Vendor) :
    tag.translate target =
      (translateAddress tag.address tag.vendor target).bind fun translated =>
        ((Address.parse target translated.normalized).mapError .unreadable).bind fun reread =>
          if tag.dataType ∈ reread.accepts then .ok (tag.movedTo target translated.normalized)
          else .error (.incompatible translated.normalized tag.dataType) := by
  cases htranslated : translateAddress tag.address tag.vendor target with
  | error fault =>
      rw [translate, hfilled, htranslated]
      rfl
  | ok translated =>
      obtain ⟨address, -, hread, -, -⟩ := exists_of_translateAddress htranslated
      rw [translate, hfilled, htranslated, Except.bind, hread]
      rfl

/-- Without an address there is nothing to translate. -/
theorem fits_movedTo_of_empty (hempty : tag.address = "") (target : Vendor) :
    (tag.movedTo target tag.address).AddressFits ∧
      (tag.movedTo target tag.address).area? = tag.area? ∧
      (tag.movedTo target tag.address).types? = tag.types? := by
  have hblank : Text.isAllBlank tag.address = true := Text.isAllBlank_of_empty hempty
  have hmoved : Text.isAllBlank (tag.movedTo target tag.address).address = true := hblank
  refine ⟨.inl hempty, ?_, ?_⟩
  · rw [area?_of_isAllBlank hmoved, area?_of_isAllBlank hblank]
  · rw [types?_of_isAllBlank hmoved, types?_of_isAllBlank hblank]

/-- A translation fits as the address did, and says the same. -/
theorem fits_movedTo (hparse : Address.parse tag.vendor tag.address = .ok address)
    (hholds : tag.dataType ∈ address.accepts)
    (htranslated : translateAddress tag.address tag.vendor target = .ok translated) :
    (tag.movedTo target translated.normalized).AddressFits ∧
      (tag.movedTo target translated.normalized).area? = tag.area? ∧
      (tag.movedTo target translated.normalized).types? = tag.types? := by
  obtain ⟨same, hsame, hread, harea, haccepts⟩ := exists_of_translateAddress htranslated
  obtain rfl := Except.ok.inj (hparse.symm.trans hsame)
  have hmoved : Address.parse (tag.movedTo target translated.normalized).vendor
      (tag.movedTo target translated.normalized).address = .ok translated := hread
  refine ⟨.inr ⟨translated, hread, rfl, haccepts ▸ hholds⟩, ?_, ?_⟩
  · rw [area?_of_parse hmoved, area?_of_parse hparse, harea]
  · rw [types?_of_parse hmoved, types?_of_parse hparse, haccepts]

/-- A tag whose address fits has a translation whose address fits and says the same, or there
is no equivalent of its address: the type is never in the way. -/
theorem AddressFits.translate_cases (h : tag.AddressFits) (target : Vendor) :
    tag.translate target = .error (.noEquivalent tag.address target) ∨
      ∃ address, tag.translate target = .ok (tag.movedTo target address) ∧
        (tag.movedTo target address).AddressFits ∧
        (tag.movedTo target address).area? = tag.area? ∧
        (tag.movedTo target address).types? = tag.types? := by
  rcases h with hempty | ⟨address, hparse, -, hholds⟩
  · exact .inr ⟨_, translate_of_blank (hasAddress_of_empty hempty) target,
      fits_movedTo_of_empty hempty target⟩
  · rcases translateAddress_cases target hparse with ⟨translated, htranslated⟩ | hfault
    · exact .inr ⟨_, translate_of_holds hparse hholds htranslated,
        fits_movedTo hparse hholds htranslated⟩
    · exact .inl (translate_of_error hparse hfault)

/-- The area decides whether the category agrees with the address. -/
theorem IsPrepared.movedTo {text : String} (h : tag.IsPrepared)
    (hfits : (tag.movedTo target text).AddressFits)
    (harea : (tag.movedTo target text).area? = tag.area?) :
    (tag.movedTo target text).IsPrepared where
  address := hfits
  category := fun area hfound => h.category area (harea ▸ hfound)

/-- **Translations of valid tags are valid.**  A tag that validation accepts and leaves as it
is has a translation, or is reported to have no equivalent.  The translation differs only in
its vendor and its address, whose types and area, and so its category, are those that the
address had.  Validation leaves it as it is and reports no error of it but that of a name
which the vendor does not admit. -/
theorem translate_keeps_validity (haccepted : tag.prepare.isAccepted = true)
    (hunchanged : tag.prepare.tag = tag) (target : Vendor) :
    tag.translate target = .error (.noEquivalent tag.address target) ∨
      ∃ other, tag.translate target = .ok other ∧
        other = { tag with vendor := target, address := other.address } ∧
        other.prepare.tag = other ∧
        (∀ issue ∈ other.prepare.issues, issue.isError = true → issue.code = .invalidName) ∧
        other.types? = tag.types? ∧ other.area? = tag.area? ∧
        Category.infer other.scope other.area? = Category.infer tag.scope tag.area? := by
  have hprepared : tag.IsPrepared :=
    isPrepared_iff.mpr ⟨(isAccepted_prepare_iff.mp haccepted).2, hunchanged⟩
  rcases hprepared.address.translate_cases target with hfails | ⟨text, hother, hfits, harea, htypes⟩
  · exact .inl hfails
  · have hagain := hprepared.movedTo hfits harea
    refine .inr ⟨_, hother, rfl, (isPrepared_iff.mp hagain).2, hagain.code_of_isError, htypes,
      harea, ?_⟩
    rw [harea]
    rfl

/-- A tag in double words, which Rockwell cannot address, with a name that only Siemens
admits. -/
def beltSpeed : Tag where
  name := "Belt speed"
  dataType := .real
  address := "MD8"
  scope := .local
  category := .memory
  vendor := .siemens

theorem translate_keeps_validity_beltSpeed :
    beltSpeed.prepare.isAccepted = true ∧ beltSpeed.prepare.tag = beltSpeed ∧
      beltSpeed.translate .rockwell = .error (.noEquivalent "MD8" .rockwell) ∧
      ∃ other, beltSpeed.translate .beckhoff = .ok other ∧
        other = { beltSpeed with vendor := .beckhoff, address := "%MD8" } ∧
        other.prepare.tag = other ∧ other.prepare.isAccepted = false ∧
        (∀ issue ∈ other.prepare.issues, issue.isError = true → issue.code = .invalidName) ∧
        other.types? = beltSpeed.types? ∧ other.area? = beltSpeed.area? := by
  have haccepted : beltSpeed.prepare.isAccepted = true := by decide +kernel
  have hunchanged : beltSpeed.prepare.tag = beltSpeed := by decide +kernel
  have hfound : beltSpeed.translate .beckhoff =
      .ok { beltSpeed with vendor := .beckhoff, address := "%MD8" } :=
    eq_ok_of_toOption (by decide +kernel)
  have hmissing : (beltSpeed.translate .rockwell).toOption = none := by decide +kernel
  refine ⟨haccepted, hunchanged, ?_, ?_⟩
  · rcases translate_keeps_validity haccepted hunchanged .rockwell with hfails | ⟨other, hother, -⟩
    · exact hfails
    · rw [hother] at hmissing
      cases hmissing
  · rcases translate_keeps_validity haccepted hunchanged .beckhoff with hfails |
      ⟨other, hother, -, hagain, hnames, htypes, harea, -⟩
    · cases hfound.symm.trans hfails
    · obtain rfl := Except.ok.inj (hfound.symm.trans hother)
      exact ⟨_, hfound, rfl, hagain, by decide +kernel, hnames, htypes, harea⟩

end Tag

end PlcTags
