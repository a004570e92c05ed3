import PlcTags.Diagnostic
import PlcTags.Store.Database

/-!
# Merging batches

A batch of tags is merged into a project tag by tag: a tag is written if its key is new
there or if it differs from what is stored, and nothing is ever deleted.  The project is
read once, before the first tag; from then on a merge relies on its own picture of it.
What goes wrong with one tag is reported and does not stop the others.
-/

namespace PlcTags

/-- Where a batch comes from. -/
inductive Origin where
  /-- An edit in a live session. -/
  | editor
  /-- A source that a program has written. -/
  | generated
  /-- A container. -/
  | container
  deriving DecidableEq, Repr

namespace Origin

def word : Origin → String
  | editor => "editor"
  | generated => "generated"
  | container => "import"

def ofWord? (word : String) : Option Origin :=
  [editor, generated, container].find? (·.word == word)

/-- New tags of this origin are marked as generated. -/
def isGenerated (origin : Origin) : Bool :=
  origin == .generated

end Origin

/-- What came of a merge. -/
structure MergeReport where
  inserted : Nat := 0
  updated : Nat := 0
  unchanged : Nat := 0
  /-- The problems of single tags. -/
  errors : List Diagnostic := []
  deriving DecidableEq, Repr

/-- A merge on its way. -/
structure Merge where
  project : Int
  origin : Origin
  /-- The tags of the project as the merge knows them, by their keys; the first entry of a
  key counts. -/
  known : List (String × Tag)
  /-- The keys that have been met in the batch. -/
  met : List String := []
  report : MergeReport := {}
  deriving DecidableEq, Repr

namespace Merge

/-- A merge into a project with these tags. -/
def start (project : Int) (origin : Origin) (stored : List StoredTag) : Merge :=
  { project, origin, known := (stored.map fun stored => (stored.tag.key, stored.tag)).reverse }

/-- Two tags agree in every field that a write of one over the other would change. -/
def SameFields (stored tag : Tag) : Prop :=
  stored.dataType = tag.dataType ∧ stored.address = tag.address ∧ stored.scope = tag.scope ∧
    stored.category = tag.category ∧ stored.defaultValue = tag.defaultValue ∧
    stored.description = tag.description ∧ stored.vendor = tag.vendor

instance (stored tag : Tag) : Decidable (SameFields stored tag) :=
  inferInstanceAs (Decidable (_ ∧ _))

def duplicate (name : String) : Diagnostic :=
  { severity := .error, code := .duplicateName, tag := some name,
    message := "duplicate tag name '" ++ name ++ "' in batch; later entry applied" }

def conflict (name : String) (failure : Failure) : Diagnostic :=
  { severity := .error, code := .storeConflict, tag := some name, message := failure.message }

def note (merge : Merge) (diagnostic : Diagnostic) : Merge :=
  { merge with report := { merge.report with errors := merge.report.errors ++ [diagnostic] } }

/-- The merge meets a tag, perhaps not the first of its key. -/
def meet (merge : Merge) (tag : Tag) : Merge :=
  let noted := if tag.key ∈ merge.met then merge.note (duplicate tag.name) else merge
  { noted with met := tag.key :: merge.met }

def countUnchanged (merge : Merge) : Merge :=
  { merge with report := { merge.report with unchanged := merge.report.unchanged + 1 } }

/-- Counts a write, by whether the key was known before. -/
def countWritten (merge : Merge) (wasKnown : Bool) : Merge :=
  { merge with report :=
      if wasKnown then { merge.report with updated := merge.report.updated + 1 }
      else { merge.report with inserted := merge.report.inserted + 1 } }

/-- The merge learns what is stored under a key now. -/
def learn (merge : Merge) (key : String) (tag : Tag) : Merge :=
  { merge with known := (key, tag) :: merge.known }

/-- The tag as it is written. -/
def marked (merge : Merge) (tag : Tag) : Tag :=
  { tag with isGenerated := merge.origin.isGenerated }

/-- Whether a tag has to be written. -/
def needsWrite (merge : Merge) (tag : Tag) : Bool :=
  match merge.known.lookup tag.key with
  | some stored => !decide (SameFields stored tag)
  | none => true

/-- The merge after a tag whose write gave this answer. -/
def wrote (merge : Merge) (tag : Tag) : Except Failure StoredTag → Merge
  | .ok stored =>
    (merge.countWritten (merge.known.lookup tag.key).isSome).learn tag.key stored.tag
  | .error failure => merge.note (conflict tag.name failure)

/-- One tag of the batch. -/
def step (merge : Merge) (stamp : Stamp) (database : Database) (tag : Tag) :
    Merge × Database :=
  let merge := merge.meet tag
  if merge.needsWrite tag then
    let tag := merge.marked tag
    (merge.wrote tag (database.upsertResult stamp merge.project tag),
      database.upsert stamp merge.project tag)
  else (merge.countUnchanged, database)

end Merge

end PlcTags
