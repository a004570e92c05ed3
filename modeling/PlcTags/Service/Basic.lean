import PlcTags.Access.Credential
import PlcTags.Events.Bus
import PlcTags.Live.Job
import PlcTags.Live.Locks
import PlcTags.Live.Registry
import PlcTags.Live.Session

/-!
# The service

All that the service holds: the database, who listens to events, the sessions with the
registry of their subscriptions, the jobs, and for every project one lock for merges and
one for everything that tells subscribers about its tags.  Sessions and jobs are known by
their numbers and stay in the lists when they are over.
-/

namespace PlcTags

open Live

structure Service where
  settings : Settings
  database : Database
  events : EventBus
  supply : Supply := {}
  sessions : List Session := []
  jobs : List Job := []
  registry : Registry Nat := {}
  /-- Merges into one project happen one after the other. -/
  merges : Locks := {}
  /-- So do announcements of one project, and sessions that join it. -/
  announcements : Locks := {}
  /-- How many edits have been accepted. -/
  syncs : Nat := 0
  /-- The time on the clock, in milliseconds since the service was started. -/
  now : Nat := 0

namespace Service

/-- A service on a database.  There is none with settings that leave no room for
events. -/
def start? (settings : Settings) (database : Database) (supply : Supply) : Option Service :=
  (EventBus.new? settings.sync.eventCapacity).map fun events =>
    { settings, database, events, supply }

/-- A new service on the database of this one. -/
def restart? (service : Service) : Option Service :=
  start? service.settings service.database.reopen service.supply

/-! ## Parts -/

def setSession (service : Service) (number : Nat) (session : Session) : Service :=
  { service with sessions := service.sessions.set number session }

/-- Changes a session, if there is one of this number. -/
def updateSession (service : Service) (number : Nat) (change : Session → Session) : Service :=
  { service with sessions := service.sessions.modify number change }

/-- A job goes on to a stage. -/
def setStage (service : Service) (number : Nat) (stage : Stage) : Service :=
  { service with jobs := service.jobs.modify number ({ · with stage }) }

def addJob (service : Service) (job : Job) : Service :=
  { service with jobs := service.jobs ++ [job] }

/-- Emits the event that a moment makes. -/
def emit (service : Service) (event : Instant → TagEvent) : Service :=
  { service with
    events := service.events.emit (event service.supply.stamp.time)
    supply := service.supply.next }

/-- A call of a session ends with this answer. -/
def answer (service : Service) (number : Nat) (reply : ServerMessage) : Service :=
  service.updateSession number (·.answer (some reply))

/-! ## The database -/

/-- Writes a tag. -/
def upsert (service : Service) (project : Int) (tag : Tag) :
    Except Failure StoredTag × Service :=
  (service.database.upsertResult service.supply.stamp project tag,
    { service with
      database := service.database.upsert service.supply.stamp project tag
      supply := service.supply.next })

end Service

end PlcTags
