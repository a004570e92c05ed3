import PlcTags.Diagnostic
import PlcTags.Tag.Basic

/-!
# Messages of live sessions

What clients say to the service and what it says to them.
-/

namespace PlcTags.Live

/-- An edit of a source text. -/
structure Edit where
  vendor : Vendor
  sourceText : String
  /-- The delay that the client asks for, in milliseconds. -/
  debounceMs : Option Nat := none
  /-- The source was written by a program. -/
  generated : Bool := false
  deriving DecidableEq, Repr

inductive ClientMessage where
  | auth (token : String)
  | subscribe (project : Int)
  | unsubscribe
  | syncEdit (edit : Edit)
  | ping
  deriving DecidableEq, Repr

inductive ServerMessage where
  | authenticated (identity : String)
  /-- The tags of a project, for a session that has just joined it. -/
  | subscribed (project : Int) (tags : List StoredTag)
  | unsubscribed (project : Int)
  /-- An edit was accepted and waits for its delay. -/
  | syncQueued (sync : Nat)
  /-- An edit was merged into its project. -/
  | syncComplete (sync : Nat) (project : Int) (inserted updated unchanged : Nat)
    (diagnostics : List Diagnostic)
  /-- The tags of a project after a change. -/
  | tagsUpdated (project : Int) (tags : List StoredTag)
  | error (text : String)
  | pong
  deriving DecidableEq, Repr

end PlcTags.Live
