import PlcTags.Live.Outbox
import PlcTags.Live.Slot
import PlcTags.Stamp.Uuid

/-!
# Sessions

A session belongs to one connection.  It is accepted once a credential of its own has
been, and then may be subscribed to one project at a time, whose changes it is told and
whose tags it edits.
-/

namespace PlcTags.Live

inductive SessionState where
  | unauthenticated
  | authenticated
  | subscribed (project : Int)
  deriving DecidableEq, Repr

/-- What a session that is busy waits for. -/
inductive Call where
  /-- A credential is being checked. -/
  | checking (credential : Option String)
  /-- In line for the project that the session wants to join, or first in line there. -/
  | joining (project : Int)
  /-- The tags of the project are known; the session is about to be registered. -/
  | registering (project : Int) (tags : List StoredTag)
  /-- Registered; the tags wait for room in the outbox. -/
  | greeting (project : Int)
  deriving DecidableEq, Repr

structure Session where
  id : Uuid
  outbox : Outbox
  state : SessionState := .unauthenticated
  /-- Who the session belongs to; it is remembered when the session closes. -/
  identity : Option String := none
  /-- The edit that waits for its delay. -/
  slot : Slot := {}
  /-- The session has closed, which happens once. -/
  isClosed : Bool := false
  /-- The session is gone. -/
  isDropped : Bool := false
  /-- The call that the session is busy with. -/
  call : Option Call := none
  /-- What the last call answered directly. -/
  reply : Option ServerMessage := none
  /-- A call could not be carried out, because the settings contradict each other. -/
  hasCrashed : Bool := false
  deriving DecidableEq, Repr

namespace Session

/-- The session can be called. -/
def isIdle (session : Session) : Bool :=
  !session.isDropped && session.call.isNone

/-- The project that the session is subscribed to. -/
def project? (session : Session) : Option Int :=
  match session.state with
  | .subscribed project => some project
  | .unauthenticated | .authenticated => none

/-- The call ends with this answer. -/
def answer (session : Session) (reply : Option ServerMessage) : Session :=
  { session with call := none, reply }

/-- The session is busy with this. -/
def await (session : Session) (call : Call) : Session :=
  { session with call := some call, reply := none }

end Session

end PlcTags.Live
