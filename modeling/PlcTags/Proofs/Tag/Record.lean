import PlcTags.Proofs.Container.Portable
import PlcTags.Tag.Record

/-!
# Records are read back

A record has the vendor's words for the type and the scope of a tag.  Each word is the first
of possibly several for its value, and is read as this value (`readType?_typeName`,
`readScope?_scopeWord`).  The address of a record is the canonical spelling that validation
leaves, and is read as it stands (`toTag_of_isCanonical`); what no record has is the category.
So a tag that says nothing but what its record does is what the record is read as
(`toTag_toRecord`).
-/

namespace PlcTags

open Text

/-- A record with a canonical address, and with words that stand for a type and a scope. -/
theorem VendorRecord.toTag_of_isCanonical {record : VendorRecord} {dataType : DataType}
    {scope : Scope} (htype : record.vendor.readType? record.dataType = some dataType)
    (hscope : record.vendor.readScope? record.scope = some scope)
    (haddress : record.vendor.IsCanonical record.address) :
    record.toTag = .ok {
      name := trimmed record.name
      dataType := dataType
      address := record.address
      scope := scope
      category := Category.infer scope
        ((Address.parse record.vendor record.address).toOption.map Address.area)
      defaultValue := record.defaultValue
      description := record.description
      vendor := record.vendor } := by
  unfold toTag
  rw [htype, hscope]
  rcases haddress with hempty | ⟨address, hparse, hsame⟩
  · have hblank : isAllBlank record.address = true := isAllBlank_of_empty hempty
    rw [Address.parse_of_isAllBlank hblank, hblank, hempty]
    rfl
  · rw [Address.isAllBlank_of_parse hparse, hparse, ← hsame]
    rfl

namespace Tag

variable {tag : Tag}

/-- **Records are read back.**  The record of a tag that validation accepts can be read, and
gives what validation makes of the tag.  The name must not have blanks at its ends, and the
category must be the one that follows from the scope and the address, because a record is
read without the one and does not have the other. -/
theorem toTag_toRecord (haccepted : tag.prepare.isAccepted = true) (hname : Trimmed tag.name)
    (hcategory : tag.category = Category.infer tag.scope tag.area?) :
    ∃ back, tag.toRecord.toTag = .ok back ∧ back.Equivalent tag.prepare.tag := by
  have hvendor : tag.prepareAddress.1.vendor = tag.vendor := by rw [prepareAddress_eq]
  have hfits : tag.prepareAddress.1.AddressFits :=
    (isAccepted_prepare_iff.mp haccepted).2.addressFits
  have haddress : tag.vendor.IsCanonical tag.prepareAddress.1.address :=
    hvendor ▸ hfits.isCanonical
  have harea : (Address.parse tag.vendor tag.prepareAddress.1.address).toOption.map Address.area =
      tag.area? := by
    rw [← hvendor]
    exact tag.area?_prepareAddress
  have hread : tag.toRecord.toTag = .ok { tag with
      name := trimmed tag.name
      address := tag.prepareAddress.1.address
      category := Category.infer tag.scope
        ((Address.parse tag.vendor tag.prepareAddress.1.address).toOption.map Address.area)
      isGenerated := false } :=
    VendorRecord.toTag_of_isCanonical (readType?_typeName tag.vendor tag.dataType)
      (readScope?_scopeWord tag.vendor tag.scope) haddress
  -- The name and the category that are read are those of the tag.
  have hsame : trimmed tag.name = tag.name := hname
  rw [harea, ← hcategory, hsame] at hread
  refine ⟨_, hread, ?_⟩
  have hprepared : tag.prepare.tag = { tag with address := tag.prepareAddress.1.address } :=
    calc tag.prepare.tag
        = { tag with address := tag.prepareAddress.1.address,
                     category := tag.prepareAddress.1.category } := tag.prepareAddress_eq
      _ = { tag with address := tag.prepareAddress.1.address } := by
        rw [category_prepareAddress_of_inferred hcategory]
  rw [hprepared]
  rfl

/-- A generated tag with its address in another spelling than the canonical one. -/
def startButton : Tag where
  name := "Start button"
  dataType := .bool
  address := " %e000.3"
  scope := .input
  category := .input
  defaultValue := "FALSE"
  vendor := .siemens
  isGenerated := true

theorem toTag_toRecord_startButton :
    startButton.prepare.isAccepted = true ∧ startButton.toRecord.address = "I0.3" ∧
      startButton.toRecord.dataType = "Bool" ∧ startButton.toRecord.scope = "Input" ∧
      ∃ back, startButton.toRecord.toTag = .ok back ∧
        back.Equivalent startButton.prepare.tag := by
  have haccepted : startButton.prepare.isAccepted = true := by decide +kernel
  have hcategory : startButton.category =
      Category.infer startButton.scope startButton.area? := by decide +kernel
  exact ⟨haccepted, by decide +kernel, by decide +kernel, by decide +kernel,
    toTag_toRecord haccepted (by decide) hcategory⟩

end Tag

end PlcTags
