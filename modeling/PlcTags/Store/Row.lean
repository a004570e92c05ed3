import PlcTags.Failure
import PlcTags.Stamp.Supply
import PlcTags.Tag.Basic

/-!
# Rows

A stored tag is a row of a table.  The row belongs to a project and is found there by its
key, which was worked out from the name of the tag when the row was made and still is the
key of the name that is stored; what a tag takes from a vocabulary stands in it as a word,
which somebody else may have overwritten with anything.
-/

namespace PlcTags.Store

structure Row where
  id : Uuid
  project : Int
  name : String
  /-- The place of the row in its project. -/
  key : String
  dataType : String
  address : String
  scope : String
  category : String
  defaultValue : String
  description : String
  vendor : String
  isGenerated : Bool
  createdAt : Instant
  updatedAt : Instant
  key_eq : key = nameKey name
  deriving DecidableEq, Repr

namespace Row

/-! ## Writing -/

/-- The blanks at the ends of a name, which are not stored, have no part in its key. -/
theorem nameKey_trimmed (name : String) : nameKey (Text.trimmed name) = nameKey name := by
  simp [nameKey, Text.trimmed]

/-- The row of a tag that is new in its project. -/
def ofTag (stamp : Stamp) (project : Int) (tag : Tag) : Row where
  id := stamp.id
  project := project
  name := Text.trimmed tag.name
  key := tag.key
  dataType := tag.dataType.word
  address := tag.address
  scope := tag.scope.word
  category := tag.category.word
  defaultValue := tag.defaultValue
  description := tag.description
  vendor := tag.vendor.word
  isGenerated := tag.isGenerated
  createdAt := stamp.time
  updatedAt := stamp.time
  key_eq := (nameKey_trimmed tag.name).symm

/-- The row after another write.  It stays the same tag: its identifier, its name and key,
the moment of its first write and its mark as generated do not change. -/
def update (row : Row) (time : Instant) (tag : Tag) : Row :=
  { row with
    dataType := tag.dataType.word
    address := tag.address
    scope := tag.scope.word
    category := tag.category.word
    defaultValue := tag.defaultValue
    description := tag.description
    vendor := tag.vendor.word
    updatedAt := time }

/-- The columns that hold words. -/
inductive Column where
  | dataType
  | scope
  | category
  | vendor
  deriving DecidableEq, Repr

def Column.name : Column → String
  | dataType => "data_type"
  | scope => "scope"
  | category => "category"
  | vendor => "vendor"

def Column.ofName? (name : String) : Option Column :=
  [dataType, scope, category, vendor].find? (·.name == name)

/-- The row with any text in one of its columns. -/
def overwrite (row : Row) (column : Column) (text : String) : Row :=
  match column with
  | .dataType => { row with dataType := text }
  | .scope => { row with scope := text }
  | .category => { row with category := text }
  | .vendor => { row with vendor := text }

/-! ## Reading -/

/-- The value that a column holds. -/
def cell {α : Type} (column : Column) (text : String) (read : String → Except UnknownWord α) :
    Except Failure α :=
  match read text with
  | .ok value => .ok value
  | .error fault =>
    .error (.internal ("Column " ++ column.name ++ " holds '" ++ text ++ "': " ++
      (Failure.ofUnknownWord fault).message))

/-- The tag that a row holds.  Of several columns that cannot be read the first counts. -/
def read (row : Row) : Except Failure StoredTag := do
  let dataType ← cell .dataType row.dataType DataType.read
  let scope ← cell .scope row.scope Scope.read
  let category ← cell .category row.category Category.read
  let vendor ← cell .vendor row.vendor Vendor.read
  return {
    id := row.id
    project := row.project
    tag := {
      name := row.name
      dataType, scope, category, vendor
      address := row.address
      defaultValue := row.defaultValue
      description := row.description
      isGenerated := row.isGenerated }
    createdAt := row.createdAt
    updatedAt := row.updatedAt }

/-! ## Order -/

/-- Rows are kept by project and by the key of the name. -/
def Precedes (a b : Row) : Prop :=
  a.project < b.project ∨ a.project = b.project ∧ a.key < b.key

instance (a b : Row) : Decidable (Precedes a b) :=
  inferInstanceAs (Decidable (_ ∨ _))

/-- Two rows have the same place. -/
def SamePlace (a b : Row) : Prop :=
  a.project = b.project ∧ a.key = b.key

instance (a b : Row) : Decidable (SamePlace a b) :=
  inferInstanceAs (Decidable (_ ∧ _))

theorem Precedes.trans {a b c : Row} (hab : Precedes a b) (hbc : Precedes b c) :
    Precedes a c := by
  rcases hab with hab | ⟨hab, kab⟩ <;> rcases hbc with hbc | ⟨hbc, kbc⟩
  · exact .inl (Int.lt_trans hab hbc)
  · exact .inl (hbc ▸ hab)
  · exact .inl (hab ▸ hbc)
  · exact .inr ⟨hab.trans hbc, String.lt_trans kab kbc⟩

theorem Precedes.irrefl (a : Row) : ¬Precedes a a := by
  rintro (h | ⟨-, h⟩)
  · exact Int.lt_irrefl _ h
  · exact String.lt_irrefl _ h

/-- Of two rows one precedes the other unless they have the same place. -/
theorem samePlace_of_not_precedes {a b : Row} (hab : ¬Precedes a b) (hba : ¬Precedes b a) :
    SamePlace a b := by
  have project : a.project = b.project := by
    simp only [Precedes] at hab hba
    omega
  refine ⟨project, String.le_antisymm ?_ ?_⟩
  · exact String.not_lt.mp fun h => hba (.inr ⟨project.symm, h⟩)
  · exact String.not_lt.mp fun h => hab (.inr ⟨project, h⟩)

/-- The order of rows looks only at their places. -/
theorem precedes_congr {a b c d : Row} (hab : SamePlace a b) (hcd : SamePlace c d) :
    Precedes a c ↔ Precedes b d := by
  simp only [Precedes, hab.1, hab.2, hcd.1, hcd.2]

@[simp] theorem key_ofTag (stamp : Stamp) (project : Int) (tag : Tag) :
    (ofTag stamp project tag).key = tag.key :=
  rfl

theorem samePlace_overwrite (row : Row) (column : Column) (text : String) :
    SamePlace (row.overwrite column text) row := by
  cases column <;> exact ⟨rfl, rfl⟩

end Row

end PlcTags.Store
