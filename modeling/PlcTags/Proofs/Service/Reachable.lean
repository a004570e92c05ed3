import PlcTags.Proofs.Service.Steps
import PlcTags.Transfer.Import

/-!
# Reachable services

A service begins on a store without tags, and is from then on open to everybody at once:
sessions are opened, called and closed, containers are imported, announcements are asked
for, and in between the calls and jobs go on, in whatever order (`Transition`).  The
database may refuse or fail accesses from one moment to the next, and the service may be
restarted.  What is left out is only what writes to the store past these ways.
-/

namespace PlcTags.Service

open Live

variable {service next : Service} {number : Nat}

/-! ## Transitions -/

/-- What can happen next. -/
inductive Transition (service : Service) : Service → Prop where
  /-- A call or a job goes on. -/
  | step {next : Service} (party : Party) (h : service.step? party = some next) :
      Transition service next
  | openSession {next : Service} (capacity : Nat) (h : service.openSession? capacity = some next) :
      Transition service next
  | authenticate (number : Nat) (credential : Option String) :
      Transition service (service.authenticate number credential)
  | handle (number : Nat) (message : ClientMessage) :
      Transition service (service.handle number message)
  | close (number : Nat) : Transition service (service.close number)
  | drop (number : Nat) : Transition service (service.drop number)
  | takeMessage {next : Service} {message : ServerMessage} (number : Nat)
      (h : service.takeMessage? number = some (message, next)) : Transition service next
  | hangUp (number : Nat) : Transition service (service.hangUp number)
  | post (number : Nat) (message : ServerMessage) :
      Transition service (service.post number message)
  | importContainer {next : Service} (project : Int) (vendor : Vendor)
      (format : Option Container.Format) (bytes : ByteArray)
      (h : service.importContainer project vendor format bytes = .ok next) :
      Transition service next
  | startAnnouncement (project : Int) : Transition service (service.startAnnouncement project)
  | setClock (now : Nat) : Transition service (service.setClock now)
  /-- Somebody begins or ends to listen, or reads an event. -/
  | listen (events : EventBus) : Transition service { service with events }
  /-- The database gets other tokens, refuses other accesses, or is closed. -/
  | access (database : Database) (h : database.store = service.database.store) :
      Transition service { service with database }
  | restart {next : Service} (h : service.restart? = some next) : Transition service next

/-- The services that can come of one whose store is empty. -/
inductive Reachable : Service → Prop where
  | start {service : Service} (settings : Settings) (database : Database) (supply : Supply)
      (hempty : database.store.rows = []) (h : start? settings database supply = some service) :
      Reachable service
  | next {service next : Service} (h : Reachable service) (hnext : service.Transition next) :
      Reachable next

theorem Reachable.jobSteps? {count : Nat} (h : Reachable service)
    (hsteps : service.jobSteps? number count = some next) : Reachable next := by
  induction count generalizing service with
  | zero =>
      obtain rfl := Option.some.inj hsteps
      exact h
  | succ count ih =>
      obtain ⟨middle, hstep, hrest⟩ := Option.bind_eq_some_iff.mp hsteps
      exact ih (h.next (.step (.job number) hstep)) hrest

/-! ## Calls -/

theorem sameWork_beginCheck (service : Service) (number : Nat) (session : Session)
    (credential : Option String) :
    (service.beginCheck number session credential).SameWork service := by
  unfold beginCheck
  split <;> exact ⟨rfl, rfl⟩

theorem sameWork_beginJoin (service : Service) (number : Nat) (session : Session)
    (project : Int) : (service.beginJoin number session project).SameWork service := by
  unfold beginJoin
  dsimp only
  split <;> exact ⟨rfl, rfl⟩

theorem sameWork_endSession (service : Service) (number : Nat) (session : Session) :
    (service.endSession number session).SameWork service := by
  unfold endSession
  split
  · exact .refl service
  · dsimp only
    split <;> split <;> exact ⟨rfl, rfl⟩

theorem sameWork_withIdle {act : Session → Service}
    (h : ∀ session, (act session).SameWork service) :
    (service.withIdle number act).SameWork service := by
  unfold withIdle
  split
  · split
    · exact h _
    · exact .refl service
  · exact .refl service

/-- A new job joins those there are; its edit has not been read. -/
structure AddsEdit (next service : Service) : Prop where
  jobs : ∃ job due, next.jobs = service.jobs ++ [job] ∧ job.stage = .delayed due
  database : next.database = service.database

theorem acceptEdit_work (service : Service) (number : Nat) (session : Session) (project : Int)
    (edit : Edit) : (service.acceptEdit number session project edit).SameWork service ∨
      (service.acceptEdit number session project edit).AddsEdit service := by
  unfold acceptEdit
  dsimp only
  split
  · exact .inl ⟨rfl, rfl⟩
  · exact .inr ⟨⟨_, _, rfl, rfl⟩, rfl⟩

theorem beginHandle_work (service : Service) (number : Nat) (session : Session)
    (message : ClientMessage) : (service.beginHandle number session message).SameWork service ∨
      (service.beginHandle number session message).AddsEdit service := by
  unfold beginHandle
  split
  · exact .inl ⟨rfl, rfl⟩
  · exact .inl (service.sameWork_beginCheck number session _)
  · exact .inl ⟨rfl, rfl⟩
  · exact .inl (service.sameWork_beginJoin number session _)
  · exact .inl ⟨rfl, rfl⟩
  · exact .inl ⟨rfl, rfl⟩
  · exact service.acceptEdit_work number session _ _
  · exact .inl ⟨rfl, rfl⟩

theorem handle_work (service : Service) (number : Nat) (message : ClientMessage) :
    (service.handle number message).SameWork service ∨
      (service.handle number message).AddsEdit service := by
  unfold handle withIdle
  split
  · split
    · exact service.beginHandle_work number _ message
    · exact .inl (.refl service)
  · exact .inl (.refl service)

theorem sameWork_close (service : Service) (number : Nat) :
    (service.close number).SameWork service :=
  sameWork_withIdle fun session =>
    (sameWork_updateSession _ _ _).trans (service.sameWork_endSession number session)

theorem sameWork_drop (service : Service) (number : Nat) :
    (service.drop number).SameWork service :=
  sameWork_withIdle fun session =>
    (sameWork_updateSession _ _ _).trans (service.sameWork_endSession number session)

theorem sameWork_takeMessage? {message : ServerMessage}
    (h : service.takeMessage? number = some (message, next)) : next.SameWork service := by
  obtain ⟨session, taken, outbox, -, -, heq⟩ := takeMessage?_eq_some_iff.mp h
  cases heq
  exact ⟨rfl, rfl⟩

end PlcTags.Service
