import PlcTags.Proofs.Service.Admission
import PlcTags.Proofs.Store.Count
import PlcTags.Proofs.Store.Listing
import PlcTags.Proofs.Tag.Report
import PlcTags.Proofs.Tag.Translation
import PlcTags.Proofs.Transfer.Carried
import PlcTags.Proofs.Transfer.Import
import PlcTags.Transfer.Export

/-!
# What an export amounts to when it is imported

What stands in a project was validated for its vendor, and an export looks again at what
the other vendor says to the address and the type.  So all that an import can have against
an export is a name: names are admitted by the vendor that a tag was stored for, and an
export does not ask the other vendor.

`importsTo_exported` says just this.  An export of a project always succeeds, and its
way into an empty project ends with the tags whose names the vendor admits, and with an
error for each other, and no further error.
`exports_unadmitted_name` has a project with a name that is exported for a vendor which then
refuses it.
-/

namespace PlcTags

open Live Text

/-! ## Rows have names -/

/-- A name is never blank, and stored without the blanks at its ends. -/
def naming : Admission where
  raw _ := True
  ready tag := isAllBlank tag.name = false
  kept row := Trimmed row.name ∧ isAllBlank row.name = false
  extracted _ := trivial
  decoded _ _ := trivial
  accepted {tag} _ haccepted := by
    have hname : tag.prepare.tag.name = tag.name := tag.name_prepareAddress
    rw [hname]
    exact Vendor.isAllBlank_of_admitsName (Tag.isAccepted_prepare_iff.mp haccepted).1
  marked _ hready := hready
  inserted _ _ hready := ⟨trimmed_trimmed _, (isAllBlank_trimmed _).trans hready⟩
  updated _ _ _ hkept := hkept

/-- A tag as it is stored: with a name without blanks at its ends, and with an address that
fits. -/
structure Tag.IsStored (tag : Tag) : Prop where
  name_trimmed : Trimmed tag.name
  name_filled : isAllBlank tag.name = false
  fits : tag.AddressFits

namespace Service

variable {service : Service} {project : Int} {stored : List StoredTag}

theorem Reachable.isStored (h : Reachable service)
    (hlisted : service.database.store.list project = .ok stored) :
    ∀ tag ∈ stored.map (·.tag), tag.IsStored := by
  intro tag htag
  obtain ⟨listed, hmem, rfl⟩ := List.mem_map.mp htag
  obtain ⟨row, hrow, hread⟩ := Store.exists_row_of_list hlisted hmem
  obtain ⟨same, hsame, hvalidated⟩ := h.isValidated.rows row hrow
  obtain rfl := Except.ok.inj (hread.symm.trans hsame)
  obtain ⟨htrimmed, hfilled⟩ := (naming.holds_of_reachable h).rows row hrow
  have hname : listed.tag.name = row.name := by
    obtain ⟨dataType, scope, category, vendor, rfl⟩ := Store.of_read_eq_ok hread
    rfl
  exact ⟨hname ▸ htrimmed, hname ▸ hfilled, hvalidated.address⟩

/-- A database without failures lists every project of such a service. -/
theorem Reachable.exists_list (h : Reachable service) (hworks : service.database.Works)
    (project : Int) : ∃ stored, service.database.list project = .ok stored := by
  rw [hworks.list_eq]
  refine Store.exists_list fun row hrow => ?_
  obtain ⟨stored, hread, -⟩ := h.isValidated.rows row hrow
  exact ⟨stored, hread⟩

end Service

/-! ## Tags of an export -/

namespace Tag

variable {vendor : Vendor} {tag other : Tag}

/-- What a tag is translated to fits the other vendor. -/
theorem of_translate (hfits : tag.AddressFits) (h : tag.translate vendor = .ok other) :
    other.vendor = vendor ∧ other.name = tag.name ∧ other.AddressFits := by
  rcases hfits.translate_cases vendor with hfails | ⟨address, hmoved, hmovedFits, -⟩
  · cases h.symm.trans hfails
  · obtain rfl := Except.ok.inj (hmoved.symm.trans h)
    exact ⟨rfl, rfl, hmovedFits⟩

/-- What a vendor is given for a stored tag keeps its name and fits the vendor. -/
theorem IsStored.forVendor (h : tag.IsStored) (hfor : tag.forVendor vendor = .ok other) :
    other.vendor = vendor ∧ other.name = tag.name ∧ other.IsStored := by
  have hothers : other.vendor = vendor ∧ other.name = tag.name ∧ other.AddressFits := by
    unfold Tag.forVendor at hfor
    split at hfor
    · rename_i hown
      obtain rfl := Except.ok.inj hfor
      exact ⟨hown, rfl, h.fits⟩
    · split at hfor
      · rename_i translated htranslated
        obtain rfl := Except.ok.inj hfor
        exact of_translate h.fits htranslated
      · cases hfor
  obtain ⟨hvendor, hname, hfits⟩ := hothers
  exact ⟨hvendor, hname, hname ▸ h.name_trimmed, hname ▸ h.name_filled, hfits⟩

theorem IsStored.expressible (h : tag.IsStored) (hvendor : tag.vendor = vendor) :
    tag.Expressible vendor :=
  h.fits.expressible hvendor h.name_filled

/-- A stored tag is carried under its name. -/
theorem IsStored.nameIssues_carried (h : tag.IsStored) :
    tag.carried.nameIssues = tag.nameIssues := by
  have hname : tag.carried.name = tag.name := h.name_trimmed
  rw [nameIssues, nameIssues, hname]
  rfl

end Tag

variable {vendor : Vendor} {tags : List Tag}

theorem isStored_of_mem_exportedTags (h : ∀ tag ∈ tags, tag.IsStored) :
    ∀ tag ∈ exportedTags vendor tags, tag.vendor = vendor ∧ tag.IsStored := by
  intro other hother
  obtain ⟨tag, htag, hfor⟩ := List.mem_filterMap.mp hother
  obtain ⟨hvendor, -, hstored⟩ := (h tag htag).forVendor (eq_ok_of_toOption hfor)
  exact ⟨hvendor, hstored⟩

/-- No tag gets lost: what an export leaves out is reported. -/
theorem length_exportedTags (vendor : Vendor) (tags : List Tag) :
    (exportedTags vendor tags).length + (skippedTags vendor tags).length = tags.length := by
  induction tags with
  | nil => rfl
  | cons tag tags ih =>
      unfold exportedTags skippedTags at *
      cases hfor : tag.forVendor vendor with
      | ok other =>
          rw [List.filterMap_cons_some (b := other) (by rw [hfor]; rfl),
            List.filterMap_cons_none (by rw [hfor])]
          simp only [List.length_cons]
          omega
      | error problem =>
          rw [List.filterMap_cons_none (by rw [hfor]; rfl),
            List.filterMap_cons_some (b := problem) (by rw [hfor])]
          simp only [List.length_cons]
          omega

/-- An export keeps names apart. -/
theorem pairwise_key_exportedTags (h : ∀ tag ∈ tags, tag.IsStored)
    (hdistinct : tags.Pairwise fun a b => a.key ≠ b.key) :
    (exportedTags vendor tags).Pairwise fun a b => a.key ≠ b.key := by
  have hkey : ∀ tag ∈ tags, ∀ other, (tag.forVendor vendor).toOption = some other →
      other.key = tag.key := fun tag htag other hfor =>
    congrArg nameKey ((h tag htag).forVendor (eq_ok_of_toOption hfor)).2.1
  refine List.pairwise_filterMap.mpr (hdistinct.imp_of_mem ?_)
  intro a b ha hb hne other hother another hanother
  rw [hkey a ha other hother, hkey b hb another hanother]
  exact hne

/-! ## The import of an export -/

/-- An import has inserted those of these tags whose names the vendor admits, and has
reported an error for each other, and no further error. -/
structure Live.ImportSummary.TakesAdmitted (vendor : Vendor) (tags : List Tag)
    (summary : ImportSummary) : Prop where
  inserted : summary.inserted = tags.countP fun tag => vendor.admitsName tag.name
  updated : summary.updated = 0
  unchanged : summary.unchanged = 0
  errors : summary.errors.filter Diagnostic.isError = tags.flatMap Tag.nameIssues

/-- All is well with such an import exactly if all names are admitted. -/
theorem Live.ImportSummary.TakesAdmitted.complete_iff {summary : ImportSummary}
    (h : summary.TakesAdmitted vendor tags) (hvendor : ∀ tag ∈ tags, tag.vendor = vendor) :
    ((∀ problem ∈ summary.errors, problem.isError = false) ∧ summary.inserted = tags.length) ↔
      ∀ tag ∈ tags, vendor.admitsName tag.name = true := by
  rw [h.inserted, List.countP_eq_length]
  refine ⟨And.right, fun hadmits => ⟨?_, hadmits⟩⟩
  rw [← filter_isError_eq_nil_iff, h.errors, List.flatMap_eq_nil_iff]
  intro tag htag
  rw [Tag.nameIssues, hvendor tag htag]
  exact if_pos (hadmits tag htag)

namespace Service

open Container (Format)

variable {importer : Service} {target : Int}

/-- A batch that comes to an empty project is inserted. -/
theorem importRun_of_empty (hworks : importer.database.Works)
    (hdistinct : tags.Pairwise fun a b => a.key ≠ b.key) :
    (importer.importRun target [] tags).merge.report = { inserted := tags.length } := by
  have hfresh : MergeRun.IsFresh ⟨.start target .container [], importer.database, importer.supply⟩
      tags := ⟨hdistinct, fun _ _ => List.not_mem_nil⟩
  refine (MergeRun.takeAll_of_new hworks hfresh fun _ _ => rfl).trans ?_
  simp [Merge.start]

/-- The import of stored tags of a vendor into an empty project. -/
theorem importsTo_of_stored (hworks : importer.database.Works) (hfree : importer.IsFree target)
    (hempty : importer.database.store.projectRows target = [])
    (htags : ∀ tag ∈ tags, tag.vendor = vendor ∧ tag.IsStored)
    (hdistinct : tags.Pairwise fun a b => a.key ≠ b.key) (date : String) (format : Format)
    {hint : Option Format} (hhint : hint = none ∨ hint = some format) :
    ∃ summary database,
      importer.ImportsTo target vendor hint
        (Container.encode date vendor format tags).toUTF8 summary database ∧
      summary.TakesAdmitted vendor tags := by
  have hfits : ∀ tag ∈ tags, tag.AddressFits := fun tag htag => (htags tag htag).2.fits
  have hlisted : importer.database.list target = .ok [] := by
    rw [hworks.list_eq, Store.list, hempty]
    rfl
  let batch := tags.filter fun tag => tag.vendor.admitsName (trimmed tag.name)
  have haccepted : acceptedTags (tags.map Tag.carried) = batch.map Tag.carried :=
    acceptedTags_carried hfits
  -- The keys stay distinct, because the import changes no key.
  have hbatch : (batch.map Tag.carried).Pairwise fun a b => a.key ≠ b.key := by
    refine List.pairwise_map.mpr ((hdistinct.filter _).imp ?_)
    intro a b hne
    rwa [Tag.key_carried, Tag.key_carried]
  have hlength : batch.length = tags.countP fun tag => vendor.admitsName tag.name := by
    rw [← List.countP_eq_length_filter]
    refine List.countP_congr fun tag htag => ?_
    obtain ⟨hvendor, hstored⟩ := htags tag htag
    rw [hvendor, hstored.name_trimmed]
  have himports := importsTo_encode hfree hlisted
    (fun tag htag => (htags tag htag).2.expressible (htags tag htag).1) date hhint
  rw [haccepted, importRun_of_empty hworks hbatch, List.length_map] at himports
  refine ⟨_, _, himports, hlength, rfl, rfl, ?_⟩
  simp only [summaryOf, Option.getD_some, List.append_nil]
  rw [errors_batchIssues_carried hfits]
  exact List.flatMap_congr fun tag htag => (htags tag htag).2.nameIssues_carried

/-- An import of what has been exported from a project. -/
theorem Reachable.importsTo_exportTags (hreach : Reachable service)
    (hlisted : service.database.list project = .ok stored) (hworks : importer.database.Works)
    (hfree : importer.IsFree target) (hempty : importer.database.store.projectRows target = [])
    (date : String) (vendor : Vendor) (format : Format) {hint : Option Format}
    (hhint : hint = none ∨ hint = some format) :
    ∃ summary database,
      importer.ImportsTo target vendor hint
        (exportTags date vendor format (stored.map (·.tag))).content.toUTF8 summary database ∧
      summary.TakesAdmitted vendor (exportedTags vendor (stored.map (·.tag))) ∧
      ((∀ problem ∈ summary.errors, problem.isError = false) ∧
          summary.inserted = (exportedTags vendor (stored.map (·.tag))).length ↔
        ∀ tag ∈ exportedTags vendor (stored.map (·.tag)), vendor.admitsName tag.name = true) := by
  let tags : List Tag := stored.map (·.tag)
  have hstore := Database.list_eq_ok hlisted
  have hstored : ∀ tag ∈ tags, tag.IsStored := hreach.isStored hstore
  have htags : ∀ tag ∈ exportedTags vendor tags, tag.vendor = vendor ∧ tag.IsStored :=
    isStored_of_mem_exportedTags hstored
  have hdistinct : (exportedTags vendor tags).Pairwise fun a b => a.key ≠ b.key :=
    pairwise_key_exportedTags hstored (List.pairwise_map.mpr (Store.pairwise_key_of_list hstore))
  obtain ⟨summary, database, himports, htakes⟩ :=
    importsTo_of_stored hworks hfree hempty htags hdistinct date format hhint
  exact ⟨summary, database, himports, htakes,
    htakes.complete_iff fun tag htag => (htags tag htag).1⟩

/-- **What an export amounts to when it is imported.**  Every project is exported for every
vendor in both formats, and no tag gets lost on the way.  The import of the export into an
empty project, in this format or without naming one, inserts the tags whose names the vendor
admits, and reports an error for each other.  So all of the export is taken, and without
an error, exactly if the vendor admits every name in it. -/
theorem importsTo_exported (hreach : Reachable service) (hworks : service.database.Works)
    (date : String) (project : Int) (vendor : Vendor) (format : Format) :
    ∃ stored exported,
      service.database.list project = .ok stored ∧
        service.database.exportProject date project vendor format = .ok exported ∧
        exported.count = (exportedTags vendor (stored.map (·.tag))).length ∧
        exported.count + exported.skipped.length = stored.length ∧
        ∀ (importer : Service) (target : Int) (hint : Option Format),
          importer.database.Works → importer.IsFree target →
            importer.database.store.projectRows target = [] →
            (hint = none ∨ hint = some format) →
              ∃ summary database,
                importer.ImportsTo target vendor hint exported.content.toUTF8 summary database ∧
                  summary.TakesAdmitted vendor (exportedTags vendor (stored.map (·.tag))) ∧
                  ((∀ problem ∈ summary.errors, problem.isError = false) ∧
                    summary.inserted = exported.count ↔
                      ∀ tag ∈ exportedTags vendor (stored.map (·.tag)),
                        vendor.admitsName tag.name = true) := by
  obtain ⟨stored, hlisted⟩ := hreach.exists_list hworks project
  let tags : List Tag := stored.map (·.tag)
  have hlength : (exportedTags vendor tags).length + (skippedTags vendor tags).length =
      stored.length := by
    rw [length_exportedTags, List.length_map]
  refine ⟨stored, exportTags date vendor format tags, hlisted,
    Database.exportProject_of_list hlisted date vendor format, rfl, hlength, ?_⟩
  intro importer target hint himporter hfree hempty hhint
  exact hreach.importsTo_exportTags hlisted himporter hfree hempty date vendor format hhint

/-- A table with a name that not every vendor admits. -/
def spacedTable : String :=
  "Name,Data Type\nPump 1,Bool\nValve,Int\n"

/-- A new service after the merge of the table. -/
def spacedService? : Option Service := do
  let service ← start? {} {} {}
  let service ← (service.importContainer 7 .siemens none spacedTable.toUTF8).toOption
  service.jobSteps? 0 4

theorem reachable_spacedService (h : spacedService? = some service) : Reachable service := by
  unfold spacedService? at h
  obtain ⟨first, hstart, h⟩ := Option.bind_eq_some_iff.mp h
  obtain ⟨second, himport, h⟩ := Option.bind_eq_some_iff.mp h
  have hfirst : Reachable first := .start {} {} {} rfl hstart
  exact (hfirst.next (.importContainer 7 .siemens none _ (eq_ok_of_toOption himport))).jobSteps? h

/-- What is exported of its project. -/
def spacedTags : List Tag :=
  [{ name := "Pump 1", dataType := .bool, scope := .local, category := .memory,
      vendor := .rockwell },
    { name := "Valve", dataType := .int16, scope := .local, category := .memory,
      vendor := .rockwell }]

theorem exists_spacedService : ∃ service stored, spacedService? = some service ∧
    Reachable service ∧ service.database.Works ∧ service.IsFree 8 ∧
      service.database.store.projectRows 8 = [] ∧ service.database.list 7 = .ok stored ∧
      exportedTags .rockwell (stored.map (·.tag)) = spacedTags := by
  have hfacts : (spacedService?.map fun service =>
      (decide (service.database.isOpen = true ∧ service.database.refusals = {} ∧
          service.merges.holder? 8 = none ∧ service.announcements.holder? 8 = none ∧
          service.database.store.projectRows 8 = []),
        (service.database.list 7).toOption.map fun stored =>
          exportedTags .rockwell (stored.map (·.tag)))) = some (true, some spacedTags) := by
    decide +kernel
  obtain ⟨service, hservice, hfacts⟩ := Option.map_eq_some_iff.mp hfacts
  obtain ⟨hstate, hlisted⟩ := Prod.mk.inj hfacts
  obtain ⟨hopen, hrefusals, hmerges, hannouncements, hempty⟩ := of_decide_eq_true hstate
  obtain ⟨stored, hlisted, hexports⟩ := Option.map_eq_some_iff.mp hlisted
  exact ⟨service, stored, hservice, reachable_spacedService hservice, ⟨hopen, hrefusals⟩,
    ⟨hmerges, hannouncements⟩, hempty, eq_ok_of_toOption hlisted, hexports⟩

theorem importsTo_exported_spaced : ∃ service exported summary database,
    spacedService? = some service ∧
      service.database.exportProject "" 7 .rockwell .csv = .ok exported ∧ exported.count = 2 ∧
      service.ImportsTo 8 .rockwell none exported.content.toUTF8 summary database ∧
      summary.inserted = 1 ∧
      (summary.errors.filter Diagnostic.isError).map (·.message) =
        ["'Pump 1' is not a valid rockwell tag name"] := by
  obtain ⟨service, stored, hservice, hreach, hworks, hfree, hempty, hlisted, hexports⟩ :=
    exists_spacedService
  obtain ⟨same, exported, hsame, hexported, hcount, -, himports⟩ :=
    importsTo_exported hreach hworks "" 7 .rockwell .csv
  obtain rfl := Except.ok.inj (hlisted.symm.trans hsame)
  obtain ⟨summary, database, himports, htakes, -⟩ :=
    himports service 8 none hworks hfree hempty (.inl rfl)
  rw [hexports] at hcount htakes
  refine ⟨service, exported, summary, database, hservice, hexported, hcount, himports, ?_, ?_⟩
  · rw [htakes.inserted]
    decide +kernel
  · rw [htakes.errors]
    decide +kernel

/-- What is exported for a vendor is not always what the vendor takes. -/
theorem exports_unadmitted_name : ¬ ∀ (service importer : Service) (project target : Int)
    (vendor : Vendor) (format : Format) (exported : Exported) (summary : ImportSummary)
    (database : Database), Reachable service → importer.database.Works → importer.IsFree target →
      importer.database.store.projectRows target = [] →
      service.database.exportProject "" project vendor format = .ok exported →
      importer.ImportsTo target vendor (some format) exported.content.toUTF8 summary database →
        (∀ problem ∈ summary.errors, problem.isError = false) ∧
          summary.inserted = exported.count := by
  intro hall
  obtain ⟨service, stored, -, hreach, hworks, hfree, hempty, hlisted, hexports⟩ :=
    exists_spacedService
  obtain ⟨summary, database, himports, -, hcomplete⟩ :=
    hreach.importsTo_exportTags hlisted hworks hfree hempty "" .rockwell .csv (.inr rfl)
  have hexported := Database.exportProject_of_list hlisted "" .rockwell .csv
  have hadmits := hcomplete.mp
    (hall service service 7 8 .rockwell .csv _ summary database hreach hworks hfree hempty
      hexported himports)
  rw [hexports] at hadmits
  have hrefused : ¬ ∀ tag ∈ spacedTags, Vendor.rockwell.admitsName tag.name = true := by
    decide +kernel
  exact hrefused hadmits

end Service

end PlcTags
