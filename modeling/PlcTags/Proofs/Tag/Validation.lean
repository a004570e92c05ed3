import PlcTags.Container.Codec
import PlcTags.Proofs.Tag.Preparation
import PlcTags.Source.Extraction

/-!
# Validated tags

What validation accepts has an address in its canonical spelling that can hold the type,
or none, and its category agrees with the address unless it is fixed (`IsValidated`).
An address that is validated is replaced by its canonical spelling, which names the same
element (`Address.parse_normalized`), and the category follows from there.  A tag
without an address keeps its category, so for such a tag it matters where the tag comes
from: the declarations of a source and the entries of a container both infer it from
the scope alone (`isUnplaced_toTag`, `isUnplaced_read`).
-/

namespace PlcTags

namespace Tag

/-- The category is fixed, or what the scope and the address say. -/
def CategoryFits (tag : Tag) : Prop :=
  tag.category = .temp ∨ tag.category = .constant ∨
    tag.category = Category.infer tag.scope tag.area?

structure IsValidated (tag : Tag) : Prop where
  address : tag.AddressFits
  category : tag.CategoryFits

/-- Without an address the scope decides the category, unless that is fixed. -/
def IsUnplaced (tag : Tag) : Prop :=
  tag.hasAddress = false →
    tag.category.isFixed = true ∨ tag.category = Category.infer tag.scope none

/-! ## Validation -/

theorem categoryFits_prepareAddress {tag : Tag} (hunplaced : tag.IsUnplaced)
    (hholds : tag.AddressHolds) : tag.prepareAddress.1.CategoryFits := by
  have hscope : tag.prepareAddress.1.scope = tag.scope := by rw [prepareAddress_eq]
  unfold CategoryFits
  rw [area?_prepareAddress, hscope]
  rcases hholds with hblank | ⟨address, hparse, -⟩
  · have hnone := hasAddress_eq_false_iff.mpr hblank
    rw [prepareAddress_of_blank hnone, area?_of_isAllBlank hblank]
    rcases hunplaced hnone with hfixed | hcategory
    · exact (isFixed_iff.mp hfixed).imp_right .inl
    · exact .inr (.inr hcategory)
  · rw [prepareAddress_of_parse hparse, area?_of_parse hparse]
    cases hfixed : tag.category.isFixed with
    | true =>
        rw [category_withAddress_of_isFixed address hfixed]
        exact (isFixed_iff.mp hfixed).imp_right .inl
    | false => exact .inr (.inr (category_withAddress_of_not_isFixed address hfixed))

/-- What validation accepts is validated. -/
theorem isValidated_of_isAccepted {tag : Tag} (hunplaced : tag.IsUnplaced)
    (h : tag.prepare.isAccepted = true) : tag.prepare.tag.IsValidated :=
  have hholds := (isAccepted_prepare_iff.mp h).2
  ⟨hholds.addressFits, categoryFits_prepareAddress hunplaced hholds⟩

end Tag

/-! ## Where tags come from -/

namespace Source

/-- A block decides on the fixed categories only. -/
theorem isFixed_of_category? {block : Block} {category : Category}
    (h : block.category? = some category) : category.isFixed = true := by
  unfold Block.category? at h
  split at h
  · obtain rfl := Option.some.inj h
    rfl
  · split at h
    · obtain rfl := Option.some.inj h
      rfl
    · cases h

theorem isUnplaced_toTag {declaration : Declaration} {vendor : Vendor} {tag : Tag}
    (h : declaration.toTag vendor = .ok tag) : tag.IsUnplaced := by
  unfold Declaration.toTag at h
  split at h
  · cases h
  · obtain rfl := Except.ok.inj h
    intro _
    cases hcategory : declaration.block.category? with
    | none => exact .inr rfl
    | some category => exact .inl (isFixed_of_category? hcategory)

/-- The declarations of a source give tags that can be validated. -/
theorem isUnplaced_of_mem_tags {extraction : Extraction} {tag : Tag}
    (h : tag ∈ extraction.tags) : tag.IsUnplaced := by
  obtain ⟨declaration, -, htag⟩ := List.mem_filterMap.mp h
  exact isUnplaced_toTag (eq_ok_of_toOption htag)

end Source

namespace Container

theorem category_read {entry : Entry} {vendor : Vendor} {tag : Tag}
    (h : (entry.read vendor).1 = some tag) :
    tag.category = Category.infer tag.scope tag.area? := by
  unfold Entry.read at h
  split at h
  · cases h
  · obtain rfl := Option.some.inj h
    rfl

theorem isUnplaced_read {entry : Entry} {vendor : Vendor} {tag : Tag}
    (h : (entry.read vendor).1 = some tag) : tag.IsUnplaced := by
  intro hblank
  have hnone := Tag.area?_of_isAllBlank (Tag.hasAddress_eq_false_iff.mp hblank)
  right
  rw [category_read h, hnone]

/-- So do the entries of a container. -/
theorem isUnplaced_of_decode {vendor : Vendor} {format : Format} {bytes : ByteArray}
    {decoded : Decoded} (h : decode vendor format bytes = .ok decoded) {tag : Tag}
    (htag : tag ∈ decoded.tags) : tag.IsUnplaced := by
  unfold decode at h
  cases hentries : entries vendor format bytes with
  | error fault =>
      rw [hentries] at h
      cases h
  | ok entries =>
      rw [hentries] at h
      obtain rfl := Except.ok.inj h
      obtain ⟨entry, -, hread⟩ := List.mem_filterMap.mp htag
      exact isUnplaced_read hread

end Container

end PlcTags
