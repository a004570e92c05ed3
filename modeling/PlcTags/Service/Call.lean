import PlcTags.Service.Step

/-!
# What the service is asked to do

Connections open sessions, call them and close them; imports and other jobs are started
beside them.  All of this begins at once and goes on in steps.
-/

namespace PlcTags.Service

open Live

/-! ## Sessions -/

/-- A new session, which nobody has been accepted in.  There is none without room in its
outbox. -/
def openSession? (service : Service) (capacity : Nat) : Option Service :=
  (Outbox.new? capacity).map fun outbox =>
    { service with
      sessions := service.sessions ++ [{ id := service.supply.stamp.id, outbox }]
      supply := service.supply.next }

/-- A credential is presented. -/
def beginCheck (service : Service) (number : Nat) (session : Session)
    (credential : Option String) : Service :=
  if session.state = .unauthenticated then
    service.updateSession number (·.await (.checking credential))
  else service.answer number (.error "already authenticated")

/-- The session leaves its project, and its edit is forgotten. -/
def leave (service : Service) (number : Nat) (project : Int) : Service :=
  { service with registry := service.registry.leave project number }.updateSession number
    fun session => { session with slot := session.slot.cancel, state := .authenticated }

/-- The session leaves its project for another one. -/
def beginJoin (service : Service) (number : Nat) (session : Session) (project : Int) :
    Service :=
  let service := match session.project? with
    | some previous => service.leave number previous
    | none => service
  { service with
    announcements := service.announcements.ask project (.session number) }.updateSession
      number (·.await (.joining project))

/-- An edit is accepted: it gets the next number, takes the place of the edit that waits,
and waits itself. -/
def acceptEdit (service : Service) (number : Nat) (session : Session) (project : Int)
    (edit : Edit) : Service :=
  let sync := service.syncs + 1
  let service := { service with syncs := sync }
  match service.settings.sync.debounceDelay? edit.debounceMs with
  | none => service.updateSession number ({ · with hasCrashed := true }.answer none)
  | some delay =>
    let pass : Pass := { sync, session := number, token := session.slot.nextToken, edit }
    (service.setSession number ({ session with slot := session.slot.arm }.answer
      (some (.syncQueued sync)))).addJob
        { project, purpose := .sync pass, stage := .delayed (service.now + delay) }

/-- A message of the client. -/
def beginHandle (service : Service) (number : Nat) (session : Session)
    (message : ClientMessage) : Service :=
  match message, session.state with
  | .ping, _ => service.answer number .pong
  | .auth token, _ => service.beginCheck number session (some token)
  | _, .unauthenticated => service.answer number (.error "authentication required")
  | .subscribe project, _ => service.beginJoin number session project
  | .unsubscribe, .subscribed project =>
    (service.leave number project).answer number (.unsubscribed project)
  | .unsubscribe, .authenticated => service.answer number (.error "not subscribed")
  | .syncEdit edit, .subscribed project => service.acceptEdit number session project edit
  | .syncEdit _, .authenticated =>
    service.answer number (.error "subscribe to a project before syncing")

/-- The end of a session, which can come only once. -/
def endSession (service : Service) (number : Nat) (session : Session) : Service :=
  if session.isClosed then service
  else
    let service := match session.project? with
      | some project =>
        { service with registry := service.registry.leave project number }
      | none => service
    let service := service.setSession number
      { session with slot := session.slot.cancel, state := .unauthenticated, isClosed := true }
    if session.identity.isSome then service.emit (.closed session.id) else service

/-- Does something with a session that can be called. -/
def withIdle (service : Service) (number : Nat) (act : Session → Service) : Service :=
  match service.sessions[number]? with
  | some session => if session.isIdle then act session else service
  | none => service

/-- A credential is presented to a session. -/
def authenticate (service : Service) (number : Nat) (credential : Option String) : Service :=
  service.withIdle number fun session => service.beginCheck number session credential

/-- A client says something to its session. -/
def handle (service : Service) (number : Nat) (message : ClientMessage) : Service :=
  service.withIdle number fun session => service.beginHandle number session message

/-- A session closes; it can still be called. -/
def close (service : Service) (number : Nat) : Service :=
  service.withIdle number fun session =>
    (service.endSession number session).updateSession number (·.answer none)

/-- A session goes.  It closes if it has not. -/
def drop (service : Service) (number : Nat) : Service :=
  service.withIdle number fun session =>
    (service.endSession number session).updateSession number ({ · with isDropped := true })

/-- A client takes the oldest message out of its outbox. -/
def takeMessage? (service : Service) (number : Nat) : Option (ServerMessage × Service) := do
  let session ← service.sessions[number]?
  let (message, outbox) ← session.outbox.take?
  return (message, service.setSession number { session with outbox })

/-- A client will take no more messages. -/
def hangUp (service : Service) (number : Nat) : Service :=
  service.updateSession number fun session => { session with outbox := session.outbox.close }

/-- Puts a message into an outbox if it is accepted. -/
def post (service : Service) (number : Nat) (message : ServerMessage) : Service :=
  service.updateSession number fun session =>
    { session with outbox := session.outbox.offer message }

/-! ## Jobs -/

/-- Starts a merge, which gets in line at once. -/
def startMerge (service : Service) (project : Int) (purpose : Purpose) (origin : Origin)
    (batch : List Tag) (diagnostics : List Diagnostic) : Service :=
  { service with
    merges := service.merges.ask project (.job service.jobs.length) }.addJob
      { project, purpose, stage := .queued origin batch diagnostics }

/-- Starts a merge of a batch as it is. -/
def merge (service : Service) (project : Int) (origin : Origin) (batch : List Tag) : Service :=
  service.startMerge project .merge origin batch []

/-- Starts an import of the tags of a vendor's container, with the problems that it had. -/
def importTags (service : Service) (project : Int) (vendor : Vendor) (tags : List Tag)
    (issues : List Diagnostic) : Service :=
  service.startMerge project (.importing vendor) .container (acceptedTags tags)
    (issues ++ batchIssues tags)

/-- Starts an announcement. -/
def startAnnouncement (service : Service) (project : Int) : Service :=
  { service with
    announcements := service.announcements.ask project (.job service.jobs.length) }.addJob
      { project, purpose := .announce, stage := .announcing none [] }

/-- How the last job that was started has ended. -/
def lastOutcome? (service : Service) : Option Outcome :=
  service.jobs.getLast?.bind Job.outcome?

/-! ## Time -/

/-- The clock shows a later time. -/
def setClock (service : Service) (now : Nat) : Service :=
  { service with now }

end PlcTags.Service
