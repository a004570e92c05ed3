import PlcTags.Access.Token
import PlcTags.Store.Basic

/-!
# The database

The store of tags and the table of tokens, behind a connection that can be closed.  Every
access can fail: because the connection is closed, or because the database refuses it.
-/

namespace PlcTags

/-- The accesses that the database refuses. -/
structure Refusals where
  /-- Tags with exactly one of these names are not written. -/
  names : List String := []
  /-- No project is listed. -/
  lists : Bool := false
  deriving DecidableEq, Repr

structure Database where
  store : Store := {}
  tokens : Access.TokenTable := {}
  refusals : Refusals := {}
  isOpen : Bool := true

namespace Database

/-- What an access to a closed connection says. -/
def closedDetail : String := "attempted to acquire a connection on a closed pool"

/-- What an open connection gives. -/
def ifOpen {α : Type} (database : Database) (access : Except Failure α) : Except Failure α :=
  if database.isOpen then access else .error (.database closedDetail)

/-- The database that was written to before, on a new connection. -/
def reopen (database : Database) : Database :=
  { store := database.store, tokens := database.tokens }

/-! ## Tags -/

def list (database : Database) (project : Int) : Except Failure (List StoredTag) :=
  if database.refusals.lists then .error (.internal "list refused")
  else database.ifOpen (database.store.list project)

def find (database : Database) (project : Int) (name : String) :
    Except Failure (Option StoredTag) :=
  database.ifOpen (database.store.find project name)

/-- Why a tag of this name is not written, if it is not. -/
def writeFailure? (database : Database) (name : String) : Option Failure :=
  if database.refusals.names.contains name then some (.internal "write refused")
  else if database.isOpen then none
  else some (.database closedDetail)

/-- The database after a write, which may have failed. -/
def upsert (database : Database) (stamp : Stamp) (project : Int) (tag : Tag) : Database :=
  match database.writeFailure? tag.name with
  | some _ => database
  | none => { database with store := database.store.upsert stamp project tag }

/-- What a write answers: the tag as it is stored now. -/
def upsertResult (database : Database) (stamp : Stamp) (project : Int) (tag : Tag) :
    Except Failure StoredTag :=
  match database.writeFailure? tag.name with
  | some failure => .error failure
  | none => (database.store.written stamp project tag).read

/-! ## Tokens -/

/-- Who owns a token. -/
def tokenOwner (database : Database) (token : String) : Except Failure (Option String) :=
  database.ifOpen (.ok (database.tokens.owner? token))

def assignToken (database : Database) (token identity : String) : Database :=
  { database with tokens := database.tokens.assign token identity }

end Database

end PlcTags
