import PlcTags.Store.Row

/-!
# The store

The rows of all projects, sorted by project and by the key of the name.  A key stands at
most once in a project, whatever has been written, because the order is strict; no
operation takes a row away.
-/

namespace PlcTags

namespace Store

/-- Puts a row at its place among sorted rows; a row that has the place gives way. -/
def placed (new : Row) : List Row → List Row
  | [] => [new]
  | row :: rest =>
    if new.Precedes row then new :: row :: rest
    else if row.Precedes new then row :: placed new rest
    else new :: rest

theorem mem_placed {new row : Row} {rows : List Row} (h : row ∈ placed new rows) :
    row = new ∨ row ∈ rows := by
  induction rows with
  | nil => simpa [placed] using h
  | cons first rest ih =>
    unfold placed at h
    split at h
    · exact (List.mem_cons.mp h).imp_right id
    · split at h
      · rcases List.mem_cons.mp h with h | h
        · exact .inr (h ▸ List.mem_cons_self)
        · exact (ih h).imp_right (List.mem_cons_of_mem _)
      · exact (List.mem_cons.mp h).imp_right (List.mem_cons_of_mem _)

theorem pairwise_placed (new : Row) {rows : List Row} (h : rows.Pairwise Row.Precedes) :
    (placed new rows).Pairwise Row.Precedes := by
  induction rows with
  | nil => simp [placed]
  | cons first rest ih =>
    have ⟨first_lt, rest_sorted⟩ := List.pairwise_cons.mp h
    unfold placed
    split
    next new_lt =>
      refine List.pairwise_cons.mpr ⟨fun row hrow => ?_, h⟩
      rcases List.mem_cons.mp hrow with rfl | hrow
      · exact new_lt
      · exact new_lt.trans (first_lt row hrow)
    next not_new_lt =>
      split
      next first_lt_new =>
        refine List.pairwise_cons.mpr ⟨fun row hrow => ?_, ih rest_sorted⟩
        rcases mem_placed hrow with rfl | hrow
        · exact first_lt_new
        · exact first_lt row hrow
      next not_first_lt =>
        have same := Row.samePlace_of_not_precedes not_new_lt not_first_lt
        exact List.pairwise_cons.mpr ⟨fun row hrow =>
          (Row.precedes_congr same ⟨rfl, rfl⟩).mpr (first_lt row hrow), rest_sorted⟩

end Store

structure Store where
  rows : List Store.Row := []
  sorted : rows.Pairwise Store.Row.Precedes := by exact .nil
  deriving DecidableEq

namespace Store

instance : Inhabited Store := ⟨{}⟩

/-! ## Reading -/

/-- The rows of a project, by the keys of their names. -/
def projectRows (store : Store) (project : Int) : List Row :=
  store.rows.filter (·.project == project)

def findRow? (store : Store) (project : Int) (key : String) : Option Row :=
  store.rows.find? fun row => row.project == project && row.key == key

/-- The tags of a project, by the keys of their names.  One row that cannot be read is
enough to fail. -/
def list (store : Store) (project : Int) : Except Failure (List StoredTag) :=
  (store.projectRows project).mapM Row.read

/-- The tag of a project that has a name, up to case and the blanks at its ends. -/
def find (store : Store) (project : Int) (name : String) : Except Failure (Option StoredTag) :=
  match store.findRow? project (nameKey name) with
  | some row => row.read.map some
  | none => .ok none

/-! ## Writing -/

/-- Puts a row at its place; a row that has the place gives way. -/
def place (store : Store) (row : Row) : Store :=
  ⟨placed row store.rows, pairwise_placed row store.sorted⟩

/-- The row that a write of a tag makes: the row of the same key brought up to date, or a
new one. -/
def written (store : Store) (stamp : Stamp) (project : Int) (tag : Tag) : Row :=
  match store.findRow? project tag.key with
  | some row => row.update stamp.time tag
  | none => .ofTag stamp project tag

/-- Writes a tag into a project. -/
def upsert (store : Store) (stamp : Stamp) (project : Int) (tag : Tag) : Store :=
  store.place (store.written stamp project tag)

/-- Whether a row belongs to a project and has exactly this name. -/
def isNamed (project : Int) (name : String) (row : Row) : Bool :=
  row.project == project && row.name == name

theorem samePlace_overwrite_if (test : Row → Bool) (column : Row.Column) (text : String)
    (row : Row) : Row.SamePlace (if test row then row.overwrite column text else row) row := by
  split
  · exact row.samePlace_overwrite column text
  · exact ⟨rfl, rfl⟩

/-- Overwrites a column of a row, as somebody may do who does not know its words. -/
def overwrite (store : Store) (project : Int) (name : String) (column : Row.Column)
    (text : String) : Store where
  rows := store.rows.map fun row =>
    if isNamed project name row then row.overwrite column text else row
  sorted := store.sorted.map _ fun a b h =>
    (Row.precedes_congr (samePlace_overwrite_if _ column text a)
      (samePlace_overwrite_if _ column text b)).mpr h

/-- How many rows of a project have exactly this name. -/
def countNamed (store : Store) (project : Int) (name : String) : Nat :=
  store.rows.countP (isNamed project name)

end Store

end PlcTags
