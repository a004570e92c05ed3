import PlcTags.Service.Basic
import PlcTags.Tag.Prepare

/-!
# Steps

Calls and jobs go on in steps.  A step is what happens between two moments at which
others may act; a party that waits for a lock, for room in an outbox or for the clock has
no step.
-/

namespace PlcTags.Service

open Live

/-! ## Calls of sessions -/

/-- A credential is accepted or not. -/
def checkCredential (service : Service) (number : Nat) (session : Session)
    (credential : Option String) : Service :=
  match Access.authenticate service.settings.auth service.database credential with
  | .ok identity =>
    (service.setSession number
      ({ session with state := .authenticated, identity := some identity }.answer
        (some (.authenticated identity)))).emit (.opened session.id identity)
  | .error refusal => service.answer number (.error refusal.message)

/-- A session that is first in line for a project gets to know its tags.  If that fails
it has not joined. -/
def loadForJoin (service : Service) (number : Nat) (project : Int) : Service :=
  match service.database.list project with
  | .ok tags => service.updateSession number (·.await (.registering project tags))
  | .error failure =>
    { service with
      announcements := service.announcements.release project (.session number) }.answer number
        (.error ("cannot load project " ++ toString project ++ ": " ++ failure.message))

/-- The session has joined the project. -/
def endJoin (service : Service) (number : Nat) (project : Int) : Service :=
  { service with
    announcements := service.announcements.release project (.session number) }.updateSession
      number fun session => { session with state := .subscribed project }.answer none

/-- The session is registered, and its tags are sent; the lock is kept until they are in
the outbox. -/
def register (service : Service) (number : Nat) (session : Session) (project : Int)
    (tags : List StoredTag) : Service :=
  let outbox := session.outbox.send (.session number) (.subscribed project tags)
  let service :=
    { service with registry := service.registry.join project number }.setSession number
      ({ session with outbox }.await (.greeting project))
  if outbox.isAwaitedBy (.session number) then service else service.endJoin number project

/-- A session waits for room for the tags of the project. -/
def greet? (service : Service) (number : Nat) (session : Session) (project : Int) :
    Option Service :=
  if session.outbox.isAwaitedBy (.session number) then
    (session.outbox.admit? (.session number)).map fun outbox =>
      (service.setSession number { session with outbox }).endJoin number project
  else some (service.endJoin number project)

/-- The next step of a session's call. -/
def sessionStep? (service : Service) (number : Nat) : Option Service := do
  let session ← service.sessions[number]?
  match ← session.call with
  | .checking credential => some (service.checkCredential number session credential)
  | .joining project =>
    if service.announcements.isHeldBy project (.session number) then
      some (service.loadForJoin number project)
    else none
  | .registering project tags => some (service.register number session project tags)
  | .greeting project => service.greet? number session project

/-! ## Jobs -/

/-- A later edit, or the end of its subscription, has cancelled a pass. -/
def isSuperseded (service : Service) (pass : Pass) : Bool :=
  match service.sessions[pass.session]? with
  | some session => session.slot.isCancelled pass.token
  | none => true

/-- The job gets in line for its merge. -/
def queueMerge (service : Service) (number : Nat) (project : Int) (origin : Origin)
    (batch : List Tag) (diagnostics : List Diagnostic) : Service :=
  { service with merges := service.merges.ask project (.job number) }.setStage number
    (.queued origin batch diagnostics)

/-- The job gets in line for its announcement. -/
def queueAnnouncement (service : Service) (number : Nat) (project : Int)
    (report : Option MergeReport) (diagnostics : List Diagnostic) : Service :=
  { service with
    announcements := service.announcements.ask project (.job number) }.setStage number
      (.announcing report diagnostics)

/-- A pass ends with a message to its session, for which it waits if there is no room. -/
def tell (service : Service) (number : Nat) (pass : Pass) (message : ServerMessage) :
    Service :=
  let service := service.updateSession pass.session fun session =>
    { session with outbox := session.outbox.send (.job number) message }
  let waits := service.sessions[pass.session]?.any (·.outbox.isAwaitedBy (.job number))
  service.setStage number (if waits then .reporting else .ended .told)

/-- The edit is read once its delay is over, unless a later one has come. -/
def awaitDelay? (service : Service) (number : Nat) (pass : Pass) (due : Nat) :
    Option Service :=
  if service.isSuperseded pass then some (service.setStage number (.ended .superseded))
  else if due ≤ service.now then some (service.setStage number .extracting)
  else none

/-- The declarations of the edit are read. -/
def extract (service : Service) (number : Nat) (pass : Pass) : Service :=
  let extraction := Source.extract pass.edit.vendor pass.edit.sourceText
  service.setStage number
    (if service.isSuperseded pass then .ended .superseded
      else .validating extraction.tags extraction.tagDiagnostics)

/-- The tags of the edit are validated.  From here on a later edit comes too late. -/
def validate (service : Service) (number : Nat) (project : Int) (pass : Pass)
    (tags : List Tag) (diagnostics : List Diagnostic) : Service :=
  if service.isSuperseded pass then service.setStage number (.ended .superseded)
  else service.queueMerge number project pass.edit.origin (acceptedTags tags)
    (diagnostics ++ batchIssues tags)

/-- The project could not be read, so nothing is merged. -/
def failMerge (service : Service) (number : Nat) (job : Job) (failure : Failure) : Service :=
  match job.purpose with
  | .sync pass => service.tell number pass
      (.error ("sync " ++ toString pass.sync ++ " failed: " ++ failure.message))
  | .importing _ => service.setStage number (.ended (.imported (.error failure)))
  | .merge | .announce => service.setStage number (.ended (.merged (.error failure)))

/-- A job that is first in line gets to know the project. -/
def loadForMerge (service : Service) (number : Nat) (job : Job) (origin : Origin)
    (batch : List Tag) (diagnostics : List Diagnostic) : Service :=
  match service.database.list job.project with
  | .ok stored =>
    service.setStage number (.merging (.start job.project origin stored) batch diagnostics)
  | .error failure =>
    { service with
      merges := service.merges.release job.project (.job number) }.failMerge number job failure

/-- One tag is merged. -/
def mergeTag (service : Service) (number : Nat) (merge : Merge) (tag : Tag)
    (rest : List Tag) (diagnostics : List Diagnostic) : Service :=
  let (merge, database) := merge.step service.supply.stamp service.database tag
  { service with database, supply := service.supply.next }.setStage number
    (.merging merge rest diagnostics)

/-- All tags are merged; all but bare merges are announced. -/
def endMerge (service : Service) (number : Nat) (job : Job) (report : MergeReport)
    (diagnostics : List Diagnostic) : Service :=
  let service :=
    { service with merges := service.merges.release job.project (.job number) }
  match job.purpose with
  | .sync _ | .importing _ =>
    service.queueAnnouncement number job.project (some report) diagnostics
  | .merge | .announce => service.setStage number (.ended (.merged (.ok report)))

/-- The subscribers of a project whose outboxes accept a message now. -/
def receivers (service : Service) (project : Int) : List Nat :=
  (service.registry.subscribers project).filter fun number =>
    service.sessions[number]?.any (·.outbox.accepts)

/-- Sends a message to all subscribers of a project; full and closed outboxes are passed
over. -/
def deliver (service : Service) (project : Int) (message : ServerMessage) : Service :=
  (service.registry.subscribers project).foldl
    (fun service number => service.updateSession number fun session =>
      { session with outbox := session.outbox.offer message }) service

/-- The announcement is over, and so is what it was for, however it went: a pass tells its
session, and an import has its summary.  Both are made known as events. -/
def endAnnouncement (service : Service) (number : Nat) (job : Job)
    (report : Option MergeReport) (diagnostics : List Diagnostic)
    (result : Except Failure Nat) : Service :=
  let service :=
    { service with announcements := service.announcements.release job.project (.job number) }
  let report := report.getD {}
  let problems := diagnostics ++ report.errors
  match job.purpose with
  | .sync pass =>
    (service.emit (.reconciled job.project report.inserted report.updated
      report.errors.length)).tell number pass
        (.syncComplete pass.sync job.project report.inserted report.updated report.unchanged
          problems)
  | .importing vendor =>
    (service.emit (.imported job.project vendor report.inserted report.updated
      problems.length)).setStage number
        (.ended (.imported (.ok
          ⟨report.inserted, report.updated, report.unchanged, problems⟩)))
  | .merge | .announce => service.setStage number (.ended (.announced result))

/-- A job that is first in line gets to know what it announces.  A project without
subscribers is not read. -/
def loadForAnnouncement (service : Service) (number : Nat) (job : Job)
    (report : Option MergeReport) (diagnostics : List Diagnostic) : Service :=
  if service.registry.subscriberCount job.project = 0 then
    service.endAnnouncement number job report diagnostics (.ok 0)
  else match service.database.list job.project with
    | .ok tags => service.setStage number (.delivering report diagnostics tags)
    | .error failure => service.endAnnouncement number job report diagnostics (.error failure)

/-- The tags are sent to the subscribers. -/
def announce (service : Service) (number : Nat) (job : Job) (report : Option MergeReport)
    (diagnostics : List Diagnostic) (tags : List StoredTag) : Service :=
  (service.deliver job.project (.tagsUpdated job.project tags)).endAnnouncement number job
    report diagnostics (.ok (service.receivers job.project).length)

/-- A pass waits for room for its report. -/
def awaitRoom? (service : Service) (number : Nat) (pass : Pass) : Option Service := do
  let session ← service.sessions[pass.session]?
  if session.outbox.isAwaitedBy (.job number) then
    let outbox ← session.outbox.admit? (.job number)
    return (service.setSession pass.session { session with outbox }).setStage number
      (.ended .told)
  else return service.setStage number (.ended .told)

/-- The next step of a job. -/
def jobStep? (service : Service) (number : Nat) : Option Service := do
  let job ← service.jobs[number]?
  match job.stage with
  | .delayed due => service.awaitDelay? number (← job.pass?) due
  | .extracting => return service.extract number (← job.pass?)
  | .validating tags diagnostics =>
    return service.validate number job.project (← job.pass?) tags diagnostics
  | .queued origin batch diagnostics =>
    if service.merges.isHeldBy job.project (.job number) then
      return service.loadForMerge number job origin batch diagnostics
    else none
  | .merging merge (tag :: rest) diagnostics =>
    return service.mergeTag number merge tag rest diagnostics
  | .merging merge [] diagnostics => return service.endMerge number job merge.report diagnostics
  | .announcing report diagnostics =>
    if service.announcements.isHeldBy job.project (.job number) then
      return service.loadForAnnouncement number job report diagnostics
    else none
  | .delivering report diagnostics tags =>
    return service.announce number job report diagnostics tags
  | .reporting => service.awaitRoom? number (← job.pass?)
  | .ended _ => none

/-! ## Parties -/

/-- The next step of a party. -/
def step? (service : Service) : Party → Option Service
  | .session number => service.sessionStep? number
  | .job number => service.jobStep? number

/-- Everybody who may have a step: the sessions, and then the jobs. -/
def parties (service : Service) : List Party :=
  (List.range service.sessions.length).map .session ++
    (List.range service.jobs.length).map .job

/-- The step of the first party that has one. -/
def firstStep? (service : Service) : Option Service :=
  service.parties.findSome? service.step?

end PlcTags.Service
