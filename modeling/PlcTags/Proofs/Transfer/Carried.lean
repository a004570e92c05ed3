import PlcTags.Proofs.Container.Codec
import PlcTags.Proofs.Tag.Name
import PlcTags.Proofs.Tag.Validation

/-!
# Tags out of a container meet validation

Validation has nothing to change in what a container carries of a tag whose address is
canonical and can hold the type (`prepare_carried`): the address stands as it is, and the
category is the one that validation would infer.  What is left of its checks is that of
the name, so it comes to a batch exactly if its vendor admits the name
(`acceptedTags_carried`), and no other error is reported
(`errors_batchIssues_carried`).
-/

namespace PlcTags

open Text

/-! ## Tags -/

theorem filter_isError_eq_nil_iff {problems : List Diagnostic} :
    problems.filter Diagnostic.isError = [] ↔ ∀ problem ∈ problems, problem.isError = false := by
  simp only [List.filter_eq_nil_iff, Bool.not_eq_true]

namespace Tag

variable {vendor : Vendor} {tag : Tag}

/-- A tag whose address fits can be expressed by its containers, if it has a name. -/
theorem AddressFits.expressible (h : tag.AddressFits) (hvendor : tag.vendor = vendor)
    (hname : isAllBlank tag.name = false) : tag.Expressible vendor where
  vendor_eq := hvendor
  name_filled := hname
  address_canonical := hvendor ▸ h.isCanonical

theorem key_carried (tag : Tag) : tag.carried.key = tag.key := by
  simp [key, carried, nameKey, trimmed]

/-- Carrying changes neither the address nor what it has to fit. -/
theorem AddressFits.carried (h : tag.AddressFits) : tag.carried.AddressFits := h

theorem isPrepared_carried (hfits : tag.AddressFits) : tag.carried.IsPrepared where
  address := hfits.carried
  category := by
    intro area harea
    right
    rw [← harea]
    rfl

/-- Validation leaves a carried tag as it is, and only its name can be an error. -/
theorem prepare_carried (hfits : tag.AddressFits) :
    tag.carried.prepare = ⟨tag.carried, tag.carried.nameIssues ++ tag.carried.addressWarnings⟩ :=
  (isPrepared_carried hfits).prepare_eq_self

/-- So a carried tag is accepted exactly if its name is. -/
theorem isAccepted_carried (hfits : tag.AddressFits) :
    tag.carried.prepare.isAccepted = tag.vendor.admitsName (trimmed tag.name) := by
  rw [Bool.eq_iff_iff, isAccepted_prepare_iff]
  exact and_iff_left hfits.carried.addressHolds

/-- The errors of a carried tag are those of its name. -/
theorem errors_carried (hfits : tag.AddressFits) :
    tag.carried.prepare.issues.filter Diagnostic.isError = tag.carried.nameIssues := by
  have hwarnings : tag.carried.addressWarnings.filter Diagnostic.isError = [] :=
    filter_isError_eq_nil_iff.mpr fun _ hissue => (of_mem_addressWarnings hissue).1
  rw [prepare_carried hfits, List.filter_append, hwarnings, List.append_nil,
    List.filter_eq_self.mpr fun _ hissue => (of_mem_nameIssues hissue).1]

end Tag

/-! ## Batches -/

variable {tags : List Tag}

/-- The carried tags that come to a batch are those whose names are admitted. -/
theorem acceptedTags_carried (hfits : ∀ tag ∈ tags, tag.AddressFits) :
    acceptedTags (tags.map Tag.carried) =
      (tags.filter fun tag => tag.vendor.admitsName (trimmed tag.name)).map Tag.carried := by
  unfold acceptedTags
  rw [List.map_map, List.filter_map, List.map_map]
  have haccepted : tags.filter (PreparedTag.isAccepted ∘ Tag.prepare ∘ Tag.carried) =
      tags.filter fun tag => tag.vendor.admitsName (trimmed tag.name) :=
    List.filter_congr fun tag htag => Tag.isAccepted_carried (hfits tag htag)
  rw [haccepted]
  refine List.map_congr_left fun tag htag => ?_
  rw [Function.comp_apply, Function.comp_apply,
    Tag.prepare_carried (hfits tag (List.mem_of_mem_filter htag))]

/-- The errors of a batch of carried tags are those of their names. -/
theorem errors_batchIssues_carried (hfits : ∀ tag ∈ tags, tag.AddressFits) :
    (batchIssues (tags.map Tag.carried)).filter Diagnostic.isError =
      tags.flatMap fun tag => tag.carried.nameIssues := by
  unfold batchIssues
  rw [List.map_map, List.flatMap_map, List.filter_flatMap]
  exact List.flatMap_congr fun tag htag => Tag.errors_carried (hfits tag htag)

end PlcTags
