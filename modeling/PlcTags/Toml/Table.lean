import PlcTags.Json.Basic

/-!
# Tables of a TOML document

A document is a table of tables.  A header opens a table, and may do so only once; a
dotted name passes through tables that no header has opened.
-/

namespace PlcTags.Toml

/-- How a table came to be. -/
inductive Origin where
  /-- A header names it, or it is an entry of a list of tables. -/
  | opened
  /-- A header passes through it. -/
  | passed
  /-- A dotted name passes through it. -/
  | dotted
  deriving DecidableEq, Repr

/-- What stands under a name. -/
inductive Node where
  | value (value : Json)
  | table (origin : Origin) (members : List (String × Node))
  /-- A list of tables, the last of them first. -/
  | tables (last : List (String × Node)) (earlier : List (List (String × Node)))

/-- The members of a table. -/
abbrev Members := List (String × Node)

/-- A table with its origin. -/
structure Table where
  origin : Origin
  members : Members

namespace Members

/-- Puts a node under a name, in place of the one that is there. -/
def replace (members : Members) (name : String) (node : Node) : Members :=
  members.map fun (other, old) => if other == name then (other, node) else (other, old)

/-- Adds a node under a new name. -/
def add (members : Members) (name : String) (node : Node) : Members :=
  members ++ [(name, node)]

end Members

/-- Changes the members of the table at the end of a path.  A header passes through
tables of any kind; a dotted name does not pass through one that has been opened. -/
def within (dotted : Bool) (change : Table → Option Members) :
    List String → Table → Option Members
  | [], table => change table
  | name :: path, table =>
    match table.members.lookup name with
    | none =>
      let origin := if dotted then .dotted else .passed
      (within dotted change path ⟨origin, []⟩).map fun members =>
        Members.add table.members name (.table origin members)
    | some (.value _) => none
    | some (.tables last earlier) =>
      (within dotted change path ⟨.opened, last⟩).map fun last =>
        Members.replace table.members name (.tables last earlier)
    | some (.table origin members) =>
      if dotted && origin == .opened then none
      else
        (within dotted change path ⟨origin, members⟩).map fun members =>
          Members.replace table.members name (.table origin members)

/-- Gives a value to a name, which is dotted if it has a path.  The table that the path
leads to must have been made by dotted names only. -/
def assign (path : List String) (name : String) (value : Json) (table : Table) :
    Option Members :=
  within true (fun table =>
    if (table.origin == .dotted) == path.isEmpty then none
    else if (table.members.lookup name).isSome then none
    else some (Members.add table.members name (.value value))) path table

/-- Opens the table that a header names. -/
def openTable (path : List String) (name : String) (table : Table) : Option Members :=
  within false (fun table =>
    match table.members.lookup name with
    | none => some (Members.add table.members name (.table .opened []))
    | some (.table .passed members) =>
      some (Members.replace table.members name (.table .opened members))
    | some _ => none) path table

/-- Opens a new entry of the list of tables that a header names. -/
def openEntry (path : List String) (name : String) (table : Table) : Option Members :=
  within false (fun table =>
    match table.members.lookup name with
    | none => some (Members.add table.members name (.tables [] []))
    | some (.tables last earlier) =>
      some (Members.replace table.members name (.tables [] (last :: earlier)))
    | some _ => none) path table

/-! ## As a value -/

mutual

def Node.toJson : Node → Json
  | .value value => value
  | .table _ members => .object (membersToJson members)
  | .tables last earlier => .array (entriesToJson earlier [.object (membersToJson last)])

def membersToJson : List (String × Node) → List (String × Json)
  | [] => []
  | (name, node) :: rest => (name, node.toJson) :: membersToJson rest

/-- The entries of a list of tables in front of later ones. -/
def entriesToJson : List (List (String × Node)) → List Json → List Json
  | [], later => later
  | members :: earlier, later => entriesToJson earlier (.object (membersToJson members) :: later)

end

end PlcTags.Toml
