import PlcTags.Stamp.Instant
import PlcTags.Stamp.Uuid
import PlcTags.Tag.Vocabulary
import PlcTags.Text.LowerCase

/-!
# Tags

A tag describes one named variable of a controller program in terms that do not
depend on the controller family, except for its address, which is a text in the
grammar of the tag's vendor.
-/

namespace PlcTags

structure Tag where
  name : String
  dataType : DataType
  /-- An address in the vendor's own grammar; empty for a tag without one. -/
  address : String := ""
  scope : Scope
  category : Category
  defaultValue : String := ""
  description : String := ""
  vendor : Vendor
  isGenerated : Bool := false
  deriving DecidableEq, Repr, Inhabited

/-- What identifies a name within a project: its lower case, without the blanks at
its ends. -/
def nameKey (name : String) : String :=
  String.ofList (Text.lowerCase (Text.trim name.toList))

namespace Tag

def key (tag : Tag) : String :=
  nameKey tag.name

def hasAddress (tag : Tag) : Bool :=
  !Text.isAllBlank tag.address

/-- Two tags agree in every field that a container carries: all but the mark of
generated tags. -/
def Equivalent (a b : Tag) : Prop :=
  { a with isGenerated := b.isGenerated } = b

instance (a b : Tag) : Decidable (Equivalent a b) :=
  inferInstanceAs (Decidable (_ = _))

theorem Equivalent.refl (a : Tag) : Equivalent a a := rfl

theorem Equivalent.symm {a b : Tag} (h : Equivalent a b) : Equivalent b a := by
  cases a; cases b; simp_all [Equivalent]

theorem Equivalent.trans {a b c : Tag} (hab : Equivalent a b) (hbc : Equivalent b c) :
    Equivalent a c := by
  cases a; cases b; cases c; simp_all [Equivalent]

end Tag

/-- A tag of a project, with its identifier and the moments of its first and its last
write. -/
structure StoredTag where
  id : Uuid
  project : Int
  tag : Tag
  createdAt : Instant
  updatedAt : Instant
  deriving DecidableEq, Repr

end PlcTags
