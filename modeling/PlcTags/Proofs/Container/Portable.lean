import Mathlib.Data.List.Forall2
import PlcTags.Container.Entry
import PlcTags.Proofs.Tag.Preparation

/-!
# Tags that containers carry

A container keeps what a tag says, not how it is spelled: texts lose the blanks
at their ends, addresses are stored in canonical form, and the category is not
stored at all but inferred again.  `Tag.Portable` says of a tag that none of
this makes a difference for it.

A container can express every tag of its vendor that has a name and an address in
canonical spelling (`Tag.Expressible`).  What comes out of it is `Tag.carried`, for
which the container has been through all that it does to a tag; a portable tag is
carried as it is.

An entry describes a tag (`Entry.Describes`) if each of its fields, read by the
rules of the vendor, gives the field of the tag.  Every container reduces its
round trip to this: if it reads entries that describe what is carried, then these
tags come out, without a problem (`ofEntries_of_describes_carried`).
-/

namespace PlcTags

open Text

/-! ## Words of the vendors -/

theorem readType?_typeName (vendor : Vendor) (dataType : DataType) :
    vendor.readType? (vendor.typeName dataType) = some dataType := by
  cases vendor <;> cases dataType <;> decide +kernel

theorem readScope?_scopeWord (vendor : Vendor) (scope : Scope) :
    vendor.readScope? (vendor.scopeWord scope) = some scope := by
  cases vendor <;> cases scope <;> decide +kernel

theorem isAllBlank_scopeWord (vendor : Vendor) (scope : Scope) :
    isAllBlank (vendor.scopeWord scope) = false := by
  cases vendor <;> cases scope <;> decide

theorem trimmed_scopeWord (vendor : Vendor) (scope : Scope) :
    Trimmed (vendor.scopeWord scope) := by
  cases vendor <;> cases scope <;> decide

theorem trimmed_typeName (vendor : Vendor) (dataType : DataType) :
    Trimmed (vendor.typeName dataType) := by
  cases vendor <;> cases dataType <;> decide

/-! ## Canonical addresses of a vendor -/

/-- No address at all, or one in canonical spelling. -/
def Vendor.IsCanonical (vendor : Vendor) (text : String) : Prop :=
  text = "" ∨ ∃ address, Address.parse vendor text = .ok address ∧ address.normalized = text

/-- An address that validation has nothing against is canonical. -/
theorem Tag.AddressFits.isCanonical {tag : Tag} (h : tag.AddressFits) :
    tag.vendor.IsCanonical tag.address := by
  rcases h with hempty | ⟨address, hparse, hsame, -⟩
  · exact .inl hempty
  · exact .inr ⟨address, hparse, hsame⟩

/-- A canonical address without blanks, and for Siemens without a percent sign. -/
theorem trimmed_of_isCanonical {vendor : Vendor} {text : String}
    (h : vendor.IsCanonical text) : Trimmed text := by
  rcases h with rfl | ⟨address, hparse, rfl⟩
  · decide
  · exact trimmed_of_toList (Address.trim_normalized (Address.isValid_of_parse hparse).2)

/-- A Siemens address without its percent sign begins with a letter. -/
theorem exists_cons_of_isCanonical_siemens {text : String}
    (h : Vendor.siemens.IsCanonical text) (hne : text ≠ "") :
    ∃ c rest, text.toList = c :: rest ∧ c ≠ '%' := by
  rcases h with rfl | ⟨address, hparse, rfl⟩
  · exact absurd rfl hne
  · obtain ⟨hvendor, hvalid⟩ := Address.isValid_of_parse hparse
    cases address with
    | rockwell inner => cases hvendor
    | beckhoff inner => cases hvendor
    | siemens inner =>
        obtain ⟨c, rest, hrender, hc⟩ := (Address.Siemens.spells_render hvalid).head_ne
        exact ⟨c, rest, by rw [Address.normalized, String.toList_ofList, hrender], hc⟩

theorem containerAddress_siemens {text : String} {c : Char} {rest : List Char}
    (htext : text.toList = c :: rest) (hc : c ≠ '%') :
    Vendor.siemens.containerAddress text = String.ofList ('%' :: c :: rest) := by
  unfold Vendor.containerAddress
  simp only [htext]
  split
  · rename_i heq
    cases heq
  · rename_i heq
    exact absurd (List.cons.inj heq).1 hc
  · rfl

/-- An address survives being written into a container. -/
theorem addressFromContainer_containerAddress {vendor : Vendor} {text : String}
    (h : vendor.IsCanonical text) :
    vendor.addressFromContainer (vendor.containerAddress text) = text := by
  have htrim := trimmed_of_isCanonical h
  cases vendor with
  | rockwell => exact htrim
  | beckhoff => exact htrim
  | siemens =>
      by_cases hempty : text = ""
      · subst hempty
        decide
      · obtain ⟨c, rest, htext, hc⟩ := exists_cons_of_isCanonical_siemens h hempty
        have hkeep : trim ('%' :: c :: rest) = '%' :: c :: rest :=
          trim_cons_of_trimmed (by decide) (htext ▸ htrim.toList)
        have hdrop : ('%' :: c :: rest).dropWhile (· == '%') = text.toList := by
          simp [hc, htext]
        rw [containerAddress_siemens htext hc, Vendor.addressFromContainer, String.toList_ofList,
          hkeep, hdrop, String.ofList_toList]

theorem trimmed_containerAddress {vendor : Vendor} {text : String}
    (h : vendor.IsCanonical text) : Trimmed (vendor.containerAddress text) := by
  have htrim := trimmed_of_isCanonical h
  cases vendor with
  | rockwell => exact htrim
  | beckhoff => exact htrim
  | siemens =>
      by_cases hempty : text = ""
      · subst hempty
        decide
      · obtain ⟨c, rest, htext, hc⟩ := exists_cons_of_isCanonical_siemens h hempty
        rw [containerAddress_siemens htext hc]
        apply trimmed_of_toList
        rw [String.toList_ofList]
        exact trim_cons_of_trimmed (by decide) (htext ▸ htrim.toList)

/-! ## Tags -/

/-- A tag of a vendor about which its containers say everything: a name, texts without
blanks at their ends, an address in canonical spelling, and the category that scope and
address imply. -/
structure Tag.Portable (vendor : Vendor) (tag : Tag) : Prop where
  vendor_eq : tag.vendor = vendor
  name_ne : tag.name ≠ ""
  name_trimmed : Trimmed tag.name
  default_trimmed : Trimmed tag.defaultValue
  description_trimmed : Trimmed tag.description
  address_canonical : vendor.IsCanonical tag.address
  category_eq : tag.category =
    Category.infer tag.scope ((Address.parse vendor tag.address).toOption.map Address.area)

/-- A tag of a vendor that its containers can express: with a name, and an address in
canonical spelling. -/
structure Tag.Expressible (vendor : Vendor) (tag : Tag) : Prop where
  vendor_eq : tag.vendor = vendor
  name_filled : isAllBlank tag.name = false
  address_canonical : vendor.IsCanonical tag.address

/-- What comes out of a container for a tag. -/
def Tag.carried (tag : Tag) : Tag :=
  { tag with
    name := trimmed tag.name
    category :=
      Category.infer tag.scope ((Address.parse tag.vendor tag.address).toOption.map Address.area)
    defaultValue := trimmed tag.defaultValue
    description := trimmed tag.description
    isGenerated := false }

/-- A trimmed text that is not empty is not blank either. -/
theorem isAllBlank_of_trimmed {text : String} (h : Trimmed text) (hne : text ≠ "") :
    isAllBlank text = false := by
  have htext := h.toList
  cases hlist : text.toList with
  | nil => exact absurd (String.toList_eq_nil_iff.mp hlist) hne
  | cons c rest =>
      rw [hlist] at htext
      rw [isAllBlank, hlist, allBlank, List.all_cons, head_of_trim_eq htext, Bool.false_and]

theorem Tag.Expressible.trimmed_name_ne {vendor : Vendor} {tag : Tag}
    (h : tag.Expressible vendor) : trimmed tag.name ≠ "" := by
  intro hempty
  have hfilled := h.name_filled
  rw [← isAllBlank_trimmed, hempty] at hfilled
  exact absurd hfilled (by decide)

theorem Tag.Portable.expressible {vendor : Vendor} {tag : Tag} (h : tag.Portable vendor) :
    tag.Expressible vendor where
  vendor_eq := h.vendor_eq
  name_filled := isAllBlank_of_trimmed h.name_trimmed h.name_ne
  address_canonical := h.address_canonical

/-- A portable tag loses no more than its mark. -/
theorem Tag.Portable.carried_eq {vendor : Vendor} {tag : Tag} (h : tag.Portable vendor) :
    tag.carried = { tag with isGenerated := false } := by
  rw [Tag.carried, h.vendor_eq, ← h.category_eq, h.name_trimmed, h.default_trimmed,
    h.description_trimmed, ← h.vendor_eq]

/-- A tag whose texts hold what means something in a container. -/
def awkwardTag : Tag where
  name := "a,\"b\"; <c> 'd'"
  dataType := .bool
  address := "N7:0/3"
  scope := .input
  category := .memory
  defaultValue := "1, '2') := \"3\"\n]]> &amp; 'Default := 4'"
  description := "line;\r\n\"line\"\t<!-- ]]> -->"
  vendor := .rockwell

theorem portable_awkwardTag : awkwardTag.Portable .rockwell where
  vendor_eq := rfl
  name_ne := by decide
  name_trimmed := by decide
  default_trimmed := by decide
  description_trimmed := by decide
  address_canonical := .inr ⟨_, rfl, rfl⟩
  category_eq := rfl

namespace Container

/-- An entry whose fields, read by the rules of the vendor, are those of a tag. -/
structure Entry.Describes (vendor : Vendor) (tag : Tag) (entry : Entry) : Prop where
  name_eq : trimmed entry.name = tag.name
  type_eq : vendor.readType? entry.typeName = some tag.dataType
  address_eq : vendor.addressFromContainer entry.address = tag.address
  scope_eq : entry.readScope vendor = (tag.scope, [])
  default_eq : trimmed entry.defaultValue = tag.defaultValue
  description_eq : trimmed entry.description = tag.description

theorem readScope_of_scope_eq {vendor : Vendor} {entry : Entry} {scope : Scope}
    (h : entry.scope = vendor.scopeWord scope) : entry.readScope vendor = (scope, []) := by
  simp [Entry.readScope, h, isAllBlank_scopeWord, readScope?_scopeWord]

/-- The entry with the words that the vendor has for a tag. -/
def Entry.ofTag (vendor : Vendor) (tag : Tag) (line : Option Nat) : Entry where
  name := tag.name
  typeName := vendor.typeName tag.dataType
  address := vendor.containerAddress tag.address
  scope := vendor.scopeWord tag.scope
  defaultValue := tag.defaultValue
  description := tag.description
  line

theorem describes_carried_ofTag {vendor : Vendor} {tag : Tag} (htag : tag.Expressible vendor)
    (line : Option Nat) : (Entry.ofTag vendor tag line).Describes vendor tag.carried where
  name_eq := rfl
  type_eq := readType?_typeName vendor tag.dataType
  address_eq := addressFromContainer_containerAddress htag.address_canonical
  scope_eq := readScope_of_scope_eq rfl
  default_eq := rfl
  description_eq := rfl

/-- The mark is no field that an entry has. -/
theorem describes_carried_iff {vendor : Vendor} {tag : Tag} {entry : Entry}
    (htag : tag.Portable vendor) :
    entry.Describes vendor tag.carried ↔ entry.Describes vendor tag := by
  rw [htag.carried_eq]
  exact ⟨fun h => ⟨h.1, h.2, h.3, h.4, h.5, h.6⟩, fun h => ⟨h.1, h.2, h.3, h.4, h.5, h.6⟩⟩

theorem describes_of_carried {vendor : Vendor} {tags : List Tag} {entries : List Entry}
    (htags : ∀ tag ∈ tags, tag.Portable vendor)
    (h : List.Forall₂ (fun tag entry => Entry.Describes vendor tag.carried entry) tags entries) :
    List.Forall₂ (Entry.Describes vendor) tags entries := by
  refine ((List.forall₂_and_left tags entries).mpr ⟨htags, h⟩).imp ?_
  rintro tag entry ⟨htag, hentry⟩
  exact (describes_carried_iff htag).mp hentry

theorem describes_ofTag {vendor : Vendor} {tag : Tag} (htag : tag.Portable vendor)
    (line : Option Nat) : (Entry.ofTag vendor tag line).Describes vendor tag :=
  (describes_carried_iff htag).mp (describes_carried_ofTag htag.expressible line)

/-- The entry of a tag is read without a problem, and gives what is carried of the tag. -/
theorem read_of_describes_carried {vendor : Vendor} {tag : Tag} {entry : Entry}
    (htag : tag.Expressible vendor) (h : entry.Describes vendor tag.carried) :
    entry.read vendor = (some tag.carried, []) := by
  unfold Entry.read
  simp only [h.type_eq, h.scope_eq, h.address_eq, h.default_eq, h.description_eq]
  rw [Entry.trimmedName, h.name_eq, ← htag.vendor_eq]
  rfl

/-- Entries that describe what is carried of some tags give this, in order and without a
problem. -/
theorem ofEntries_of_describes_carried {vendor : Vendor} {tags : List Tag}
    {entries : List Entry} (htags : ∀ tag ∈ tags, tag.Expressible vendor)
    (h : List.Forall₂ (fun tag entry => Entry.Describes vendor tag.carried entry) tags entries) :
    Decoded.ofEntries vendor entries = { tags := tags.map Tag.carried } := by
  induction h with
  | nil => rfl
  | @cons tag entry tags entries hentry _ ih =>
      have hrest := ih fun other hother => htags other (List.mem_cons_of_mem _ hother)
      have hfirst := read_of_describes_carried (htags tag List.mem_cons_self) hentry
      obtain ⟨htagsEq, hissues⟩ := Decoded.mk.inj hrest
      rw [Decoded.ofEntries, List.filterMap_cons, List.flatMap_cons, hfirst, htagsEq, hissues]
      rfl

/-- Entries that describe portable tags give these tags, in order and without a
problem. -/
theorem ofEntries_of_describes {vendor : Vendor} {tags : List Tag} {entries : List Entry}
    (htags : ∀ tag ∈ tags, tag.Portable vendor)
    (h : List.Forall₂ (Entry.Describes vendor) tags entries) :
    (Decoded.ofEntries vendor entries).issues = [] ∧
      List.Forall₂ Tag.Equivalent tags (Decoded.ofEntries vendor entries).tags := by
  have hcarried : List.Forall₂ (fun tag entry => Entry.Describes vendor tag.carried entry)
      tags entries := by
    refine ((List.forall₂_and_left tags entries).mpr ⟨htags, h⟩).imp ?_
    rintro tag entry ⟨htag, hentry⟩
    exact (describes_carried_iff htag).mpr hentry
  rw [ofEntries_of_describes_carried (fun tag htag => (htags tag htag).expressible) hcarried]
  refine ⟨rfl, List.forall₂_map_right_iff.mpr (List.forall₂_same.mpr ?_)⟩
  intro tag htag
  rw [(htags tag htag).carried_eq]
  rfl

end Container

end PlcTags
