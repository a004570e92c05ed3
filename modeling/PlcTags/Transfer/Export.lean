import PlcTags.Container.Codec
import PlcTags.Store.Database
import PlcTags.Tag.Translate

/-!
# Exporting containers

The tags of a project leave it as a container of one vendor.  Tags of other vendors are
translated on the way; those without a counterpart stay behind and are reported.
-/

namespace PlcTags

/-- A container made of a project. -/
structure Exported where
  format : Container.Format
  content : String
  /-- How many tags are in it. -/
  count : Nat
  /-- The tags that are not. -/
  skipped : List Diagnostic
  deriving Repr

/-- A tag as a vendor can hold it.  The vendor's own tags leave as they are. -/
def Tag.forVendor (tag : Tag) (vendor : Vendor) : Except Diagnostic Tag :=
  if tag.vendor = vendor then .ok tag
  else match tag.translate vendor with
    | .ok translated => .ok translated
    | .error fault => .error (fault.diagnostic tag.name)

/-- The tags of a list that a vendor can hold. -/
def exportedTags (vendor : Vendor) (tags : List Tag) : List Tag :=
  tags.filterMap fun tag => (tag.forVendor vendor).toOption

/-- Why each of the others cannot be held. -/
def skippedTags (vendor : Vendor) (tags : List Tag) : List Diagnostic :=
  tags.filterMap fun tag =>
    match tag.forVendor vendor with
    | .ok _ => none
    | .error diagnostic => some diagnostic

/-- The container of a list of tags, written at `date`. -/
def exportTags (date : String) (vendor : Vendor) (format : Container.Format)
    (tags : List Tag) : Exported where
  format := format
  content := Container.encode date vendor format (exportedTags vendor tags)
  count := (exportedTags vendor tags).length
  skipped := skippedTags vendor tags

namespace Database

/-- The container of a project. -/
def exportProject (database : Database) (date : String) (project : Int) (vendor : Vendor)
    (format : Container.Format) : Except Failure Exported :=
  (database.list project).map fun stored => exportTags date vendor format (stored.map (·.tag))

theorem exportProject_of_list {database : Database} {project : Int} {stored : List StoredTag}
    (h : database.list project = .ok stored) (date : String) (vendor : Vendor)
    (format : Container.Format) :
    database.exportProject date project vendor format =
      .ok (exportTags date vendor format (stored.map (·.tag))) := by
  rw [exportProject, h]
  rfl

end Database

end PlcTags
