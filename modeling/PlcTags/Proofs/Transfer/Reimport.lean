import PlcTags.Proofs.Store.Count
import PlcTags.Proofs.Store.Listing
import PlcTags.Proofs.Transfer.Carried
import PlcTags.Proofs.Transfer.Import
import PlcTags.Transfer.Export

/-!
# Importing an export again

A project whose tags are all of one vendor and settled (`Tag.IsSettled`) can be exported
for this vendor and imported again without any change: the import counts every tag as
unchanged, reports no error, and leaves the database as it is, down to the moments of the
last writes (`reimport_unchanged`).

The container gives back what is carried of the tags, which for a settled tag agrees with
the row in every field that a merge compares.  The name may lose blanks at its ends on
the way, but not its key.
-/

namespace PlcTags

open Live Text

/-! ## Settled tags -/

namespace Tag

/-- A tag of a vendor that validation accepts and leaves as it is, whose texts have no
blanks at their ends, and whose category is what scope and address say. -/
structure IsSettled (vendor : Vendor) (tag : Tag) : Prop where
  vendor_eq : tag.vendor = vendor
  accepted : tag.prepare.isAccepted = true
  unchanged : tag.prepare.tag = tag
  default_trimmed : Trimmed tag.defaultValue
  description_trimmed : Trimmed tag.description
  category_eq : tag.category = Category.infer tag.scope tag.area?

instance (vendor : Vendor) (tag : Tag) : Decidable (tag.IsSettled vendor) :=
  decidable_of_iff
    (tag.vendor = vendor ∧ tag.prepare.isAccepted = true ∧ tag.prepare.tag = tag ∧
      Trimmed tag.defaultValue ∧ Trimmed tag.description ∧
      tag.category = Category.infer tag.scope tag.area?)
    ⟨fun ⟨h₁, h₂, h₃, h₄, h₅, h₆⟩ => ⟨h₁, h₂, h₃, h₄, h₅, h₆⟩,
      fun ⟨h₁, h₂, h₃, h₄, h₅, h₆⟩ => ⟨h₁, h₂, h₃, h₄, h₅, h₆⟩⟩

variable {vendor : Vendor} {tag : Tag}

theorem IsSettled.addressFits (h : tag.IsSettled vendor) : tag.AddressFits := by
  have hunplaced : tag.IsUnplaced := by
    intro hblank
    rw [h.category_eq, area?_of_isAllBlank (hasAddress_eq_false_iff.mp hblank)]
    exact .inr rfl
  have hvalidated := isValidated_of_isAccepted hunplaced h.accepted
  rw [h.unchanged] at hvalidated
  exact hvalidated.address

theorem IsSettled.admitsName (h : tag.IsSettled vendor) :
    tag.vendor.admitsName tag.name = true := (isAccepted_prepare_iff.mp h.accepted).1

theorem IsSettled.expressible (h : tag.IsSettled vendor) : tag.Expressible vendor :=
  h.addressFits.expressible h.vendor_eq (Vendor.isAllBlank_of_admitsName h.admitsName)

/-- A settled tag is stored as its container says. -/
theorem IsSettled.sameFields (h : tag.IsSettled vendor) : Merge.SameFields tag tag.carried :=
  ⟨rfl, rfl, rfl, h.category_eq, h.default_trimmed.symm, h.description_trimmed.symm, rfl⟩

end Tag

/-! ## The export -/

section

variable {vendor : Vendor} {tags : List Tag}

/-- A vendor's own tags are all exported, as they are. -/
theorem exportedTags_of_own (h : ∀ tag ∈ tags, tag.vendor = vendor) :
    exportedTags vendor tags = tags ∧ skippedTags vendor tags = [] := by
  have hown : ∀ tag ∈ tags, tag.forVendor vendor = .ok tag := fun tag htag => if_pos (h tag htag)
  constructor
  · refine (List.filterMap_congr fun tag htag => ?_).trans List.filterMap_some
    rw [hown tag htag]
    rfl
  · refine List.filterMap_eq_nil_iff.mpr fun tag htag => ?_
    rw [hown tag htag]

end

/-! ## The import -/

namespace Service

open Container (Format)

variable {service : Service} {project : Int} {vendor : Vendor} {stored : List StoredTag}

/-- All of an export that is imported again comes to the batch. -/
theorem acceptedTags_of_settled {tags : List Tag} (h : ∀ tag ∈ tags, tag.IsSettled vendor) :
    acceptedTags (tags.map Tag.carried) = tags.map Tag.carried ∧
      ∀ problem ∈ batchIssues (tags.map Tag.carried), problem.isError = false := by
  have hfits : ∀ tag ∈ tags, tag.AddressFits := fun tag htag => (h tag htag).addressFits
  have hadmits : ∀ tag ∈ tags, tag.vendor.admitsName (trimmed tag.name) = true :=
    fun tag htag => Vendor.admitsName_trimmed (h tag htag).admitsName
  constructor
  · rw [acceptedTags_carried hfits, List.filter_eq_self.mpr hadmits]
  · rw [← filter_isError_eq_nil_iff, errors_batchIssues_carried hfits, List.flatMap_eq_nil_iff]
    exact fun tag htag => if_pos (hadmits tag htag)

/-- The batch of an export finds every tag stored. -/
theorem importRun_of_settled (hlisted : service.database.list project = .ok stored)
    (hsettled : ∀ listed ∈ stored, listed.tag.IsSettled vendor) :
    (service.importRun project stored (stored.map (·.tag.carried))).merge.report =
        { unchanged := stored.length } ∧
      (service.importRun project stored (stored.map (·.tag.carried))).database =
        service.database := by
  have hkey : ∀ tag : Tag, tag.carried.key = tag.key := Tag.key_carried
  have hdistinct := Store.pairwise_key_of_list (Database.list_eq_ok hlisted)
  have hfresh : MergeRun.IsFresh
      ⟨.start project .container stored, service.database, service.supply⟩
      (stored.map (·.tag.carried)) := by
    refine ⟨List.pairwise_map.mpr (hdistinct.imp ?_), fun _ _ => List.not_mem_nil⟩
    intro a b hne
    rwa [hkey, hkey]
  have hstored : ∀ tag ∈ stored.map (·.tag.carried),
      (Merge.start project .container stored).needsWrite tag = false := by
    intro tag htag
    obtain ⟨listed, hmem, rfl⟩ := List.mem_map.mp htag
    rw [Merge.needsWrite, hkey, Merge.lookup_start hdistinct hmem]
    simpa using (hsettled listed hmem).sameFields
  obtain ⟨hreport, hdatabase⟩ := MergeRun.takeAll_of_stored hfresh hstored
  rw [List.length_map] at hreport
  refine ⟨hreport.trans ?_, hdatabase⟩
  simp [Merge.start]

/-- **Importing an export again changes nothing.**  If the tags of a project are all settled
for a vendor, then the project is exported for this vendor without exception.  Its import,
in the format that is asked for or told from its bytes, finds all of them unchanged,
reports no error, and leaves the whole database as it is. -/
theorem reimport_unchanged (hlisted : service.database.list project = .ok stored)
    (hsettled : ∀ listed ∈ stored, listed.tag.IsSettled vendor) (hfree : service.IsFree project)
    (date : String) (format : Format) {hint : Option Format}
    (hhint : hint = none ∨ hint = some format) :
    ∃ exported summary,
      service.database.exportProject date project vendor format = .ok exported ∧
        exported.count = stored.length ∧ exported.skipped = [] ∧
        service.ImportsTo project vendor hint exported.content.toUTF8 summary service.database ∧
        summary.inserted = 0 ∧ summary.updated = 0 ∧ summary.unchanged = stored.length ∧
        ∀ problem ∈ summary.errors, problem.isError = false := by
  let tags := stored.map (·.tag)
  have htags : ∀ tag ∈ tags, tag.IsSettled vendor := by
    intro tag htag
    obtain ⟨listed, hmem, rfl⟩ := List.mem_map.mp htag
    exact hsettled listed hmem
  obtain ⟨hexported, hskipped⟩ := exportedTags_of_own fun tag htag => (htags tag htag).vendor_eq
  obtain ⟨haccepted, hproblems⟩ := acceptedTags_of_settled htags
  obtain ⟨hreport, hdatabase⟩ := importRun_of_settled hlisted hsettled
  have hcarried : tags.map Tag.carried = stored.map (·.tag.carried) := List.map_map
  -- The import takes all tags as they are carried, and finds them in the store.
  have himports := importsTo_encode hfree hlisted
    (fun tag htag => (htags tag htag).expressible) date hhint
  rw [haccepted, hcarried, hdatabase, hreport] at himports
  rw [hcarried] at hproblems
  refine ⟨exportTags date vendor format tags,
    ⟨0, 0, stored.length, batchIssues (stored.map (·.tag.carried))⟩,
    Database.exportProject_of_list hlisted date vendor format, ?_, hskipped, ?_, rfl, rfl, rfl,
    hproblems⟩
  · rw [exportTags, hexported]
    exact List.length_map ..
  · rw [exportTags, hexported]
    simpa only [summaryOf, Option.getD_some, List.append_nil] using himports

/-- A project with delimiters, quotes and line breaks in its texts, and with a name that has
been stored with a blank in front. -/
def oddStore : Store where
  rows :=
    [{ Store.Row.ofTag (Supply.stamp {}) 7
        { name := "Fan, (2)", dataType := .int16, address := "QW4", scope := .output,
          category := .output, defaultValue := "'1', Default := 2", vendor := .siemens } with
        name := " Fan, (2)", key_eq := by decide +kernel },
      .ofTag (Supply.stamp {}) 7
        { name := "pump;1", dataType := .bool, scope := .input, category := .input,
          description := "first;\r\n<second> ]]> &amp;", vendor := .siemens,
          isGenerated := true }]
  sorted := by decide +kernel

def oddService : Service where
  settings := {}
  database := { store := oddStore }
  events := { capacity := 1 }

theorem reimport_unchanged_odd : ∃ stored exported summary,
    oddService.database.list 7 = .ok stored ∧ (stored.map (·.tag.name)) = [" Fan, (2)", "pump;1"] ∧
      oddService.database.exportProject "" 7 .siemens .csv = .ok exported ∧
      exported.count = stored.length ∧ exported.skipped = [] ∧
      oddService.ImportsTo 7 .siemens none exported.content.toUTF8 summary
        oddService.database ∧
      summary.inserted = 0 ∧ summary.updated = 0 ∧ summary.unchanged = stored.length ∧
      ∀ problem ∈ summary.errors, problem.isError = false := by
  have hread : ((oddService.database.list 7).toOption.map fun stored =>
      (stored.map (·.tag.name), decide (∀ listed ∈ stored, listed.tag.IsSettled .siemens))) =
        some ([" Fan, (2)", "pump;1"], true) := by
    decide +kernel
  obtain ⟨stored, hlisted, hread⟩ := Option.map_eq_some_iff.mp hread
  obtain ⟨hnames, hsettled⟩ := Prod.mk.inj hread
  have hlisted := eq_ok_of_toOption hlisted
  obtain ⟨exported, summary, hexport, hrest⟩ := reimport_unchanged hlisted
    (of_decide_eq_true hsettled) ⟨rfl, rfl⟩ "" .csv (.inl rfl)
  exact ⟨stored, exported, summary, hlisted, hnames, hexport, hrest⟩

end Service

end PlcTags
