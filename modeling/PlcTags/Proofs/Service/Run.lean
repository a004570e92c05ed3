import PlcTags.Proofs.Service.Standing
import PlcTags.Transfer.Import

/-!
# Runs of the service

A run begins with a new service on any database, and is from then on a sequence of moves,
one at each moment: a call or a job goes on, somebody calls a session, a client takes a
message out, a job is started, time goes by, or somebody else does something to the
database.  The moves come in any order, and any of them at any moment; one that cannot
be made changes nothing.

`Happens` says what each move does, so that what holds of all moments of a run can be
proved by going through its cases.
-/

namespace PlcTags

open Live

namespace Service

/-- What can happen from one moment to the next. -/
inductive Move where
  /-- A call or a job goes on. -/
  | step (party : Party)
  | openSession (capacity : Nat)
  | authenticate (number : Nat) (credential : Option String)
  | handle (number : Nat) (message : ClientMessage)
  | close (number : Nat)
  | drop (number : Nat)
  | takeMessage (number : Nat)
  | hangUp (number : Nat)
  | post (number : Nat) (message : ServerMessage)
  /-- The merge of a batch is asked for by itself. -/
  | merge (project : Int) (origin : Origin) (batch : List Tag)
  | importContainer (project : Int) (vendor : Vendor) (format : Option Container.Format)
    (bytes : ByteArray)
  | startAnnouncement (project : Int)
  /-- Time goes by. -/
  | wait (duration : Nat)
  /-- Somebody begins or ends to listen, or reads an event. -/
  | listen (events : EventBus)
  /-- Somebody else changes the database: what it refuses, or what it stores. -/
  | access (database : Database)

/-- The service after a move.  A move that cannot be made changes nothing. -/
def moved (service : Service) : Move → Service
  | .step party => (service.step? party).getD service
  | .openSession capacity => (service.openSession? capacity).getD service
  | .authenticate number credential => service.authenticate number credential
  | .handle number message => service.handle number message
  | .close number => service.close number
  | .drop number => service.drop number
  | .takeMessage number => ((service.takeMessage? number).map Prod.snd).getD service
  | .hangUp number => service.hangUp number
  | .post number message => service.post number message
  | .merge project origin batch => service.merge project origin batch
  | .importContainer project vendor format bytes =>
    (service.importContainer project vendor format bytes).toOption.getD service
  | .startAnnouncement project => service.startAnnouncement project
  | .wait duration => service.setClock (service.now + duration)
  | .listen events => { service with events }
  | .access database => { service with database }

/-- A service that has just been started, and all that happens to it. -/
structure Run where
  first : Service
  isNew : ∃ settings database supply, start? settings database supply = some first
  moves : ℕ → Move

namespace Run

/-- The service at a moment. -/
def state (run : Run) : ℕ → Service
  | 0 => run.first
  | moment + 1 => (run.state moment).moved (run.moves moment)

end Run

variable {service next : Service} {number : Nat} {session : Session} {job : Job} {move : Move}

/-! ## What a move does -/

/-- Two services have the same jobs, which wait for the same merges, and have accepted the
same edits. -/
structure SameTasks (next service : Service) : Prop where
  jobs : next.jobs = service.jobs
  merges : next.merges = service.merges
  syncs : next.syncs = service.syncs
  database : next.database = service.database
  now : next.now = service.now
  settings : next.settings = service.settings

theorem SameTasks.refl (service : Service) : service.SameTasks service :=
  ⟨rfl, rfl, rfl, rfl, rfl, rfl⟩

/-- An edit that is accepted. -/
def editPass (service : Service) (number : Nat) (session : Session) (edit : Edit) : Pass where
  sync := service.syncs + 1
  session := number
  token := session.slot.nextToken
  edit := edit

/-- The service that has accepted an edit. -/
def withEdit (service : Service) (number : Nat) (session : Session) (project : Int)
    (edit : Edit) (delay : Nat) : Service :=
  ({ service with syncs := service.syncs + 1 }.setSession number
    ({ session with slot := session.slot.arm }.answer
      (some (.syncQueued (service.syncs + 1))))).addJob
    { project, purpose := .sync (service.editPass number session edit),
      stage := .delayed (service.now + delay) }

theorem standings_withEdit (hidle : session.isIdle = true) (project : Int) (edit : Edit)
    (delay : Nat) : (service.withEdit number session project edit delay).standings =
      service.standings.set number { session.standing with slot := session.slot.arm } := by
  have hcall := call_of_isIdle hidle
  refine (standings_setSession ..).trans ?_
  simp only [Session.standing, Session.answer, hcall]
  rfl

theorem conducts_withEdit {project : Int}
    (hsession : service.sessions[number]? = some session) (hidle : session.isIdle = true)
    (hstate : session.state = .subscribed project) (edit : Edit) (delay : Nat) :
    service.Conducts number false (service.withEdit number session project edit delay) :=
  conducts_of_set hsession (.edits hidle hstate) rfl rfl
    (standings_withEdit hidle project edit delay)

/-- What a move does. -/
inductive Happens (service : Service) : Move → Service → Prop where
  /-- The move cannot be made. -/
  | nothing {move : Move}
      (hstuck : ∀ number, move = .step (.job number) → service.jobStep? number = none) :
      Happens service move service
  | progress {number : Nat} {job : Job} {next : Service}
      (hjob : service.jobs[number]? = some job) (hstep : service.jobStep? number = some next)
      (h : Progress service number job next) :
      Happens service (.step (.job number)) next
  /-- A call of a session begins, goes on or ends; an edit is accepted only below. -/
  | conduct {move : Move} {number : Nat} {isEnd : Bool} {next : Service}
      (hmove : ∀ number, move ≠ .step (.job number)) (h : service.Conducts number isEnd next)
      (hend : isEnd = true → move = .close number ∨ move = .drop number)
      (htasks : next.SameTasks service) : Happens service move next
  /-- An edit cannot be accepted, because the settings contradict each other. -/
  | crash {move : Move} {number : Nat} {next : Service}
      (hmove : ∀ number, move ≠ .step (.job number)) (h : service.Conducts number false next)
      (htasks : next.SameTasks { service with syncs := service.syncs + 1 }) :
      Happens service move next
  | edit {number : Nat} {session : Session} {project : Int} {edit : Edit} {delay : Nat}
      (hsession : service.sessions[number]? = some session) (hidle : session.isIdle = true)
      (hstate : session.state = .subscribed project)
      (hdelay : service.settings.sync.debounceDelay? edit.debounceMs = some delay) :
      Happens service (.handle number (.syncEdit edit))
        (service.withEdit number session project edit delay)
  | opened {move : Move} {next : Service} (hmove : ∀ number, move ≠ .step (.job number))
      (hstandings : next.standings = service.standings ++ [.fresh])
      (hregistry : next.registry = service.registry)
      (hannouncements : next.announcements = service.announcements)
      (htasks : next.SameTasks service) : Happens service move next
  /-- Messages are put into an outbox or taken out, or somebody listens. -/
  | messages {move : Move} {next : Service} (hmove : ∀ number, move ≠ .step (.job number))
      (hseats : next.SameSeats service)
      (hannouncements : next.announcements = service.announcements)
      (htasks : next.SameTasks service) : Happens service move next
  /-- A merge is asked for that no edit is behind. -/
  | merge {move : Move} {project : Int} {purpose : Purpose} {origin : Origin}
      {batch : List Tag} {diagnostics : List Diagnostic}
      (hmove : ∀ number, move ≠ .step (.job number)) (hpurpose : ∀ pass, purpose ≠ .sync pass) :
      Happens service move (service.startMerge project purpose origin batch diagnostics)
  | announcement (project : Int) :
      Happens service (.startAnnouncement project) (service.startAnnouncement project)
  | wait (duration : Nat) :
      Happens service (.wait duration) (service.setClock (service.now + duration))
  | access (database : Database) : Happens service (.access database) { service with database }

theorem sameTasks_loadForJoin (service : Service) (number : Nat) (project : Int) :
    (service.loadForJoin number project).SameTasks service := by
  unfold loadForJoin
  split <;> exact ⟨rfl, rfl, rfl, rfl, rfl, rfl⟩

theorem sameTasks_sessionStep? (h : service.sessionStep? number = some next) :
    next.SameTasks service := by
  unfold sessionStep? at h
  obtain ⟨session, -, h⟩ := Option.bind_eq_some_iff.mp h
  obtain ⟨call, -, h⟩ := Option.bind_eq_some_iff.mp h
  cases call with
  | checking credential =>
      obtain rfl := Option.some.inj h
      unfold checkCredential
      split <;> exact ⟨rfl, rfl, rfl, rfl, rfl, rfl⟩
  | joining project =>
      simp only [Option.ite_none_right_eq_some] at h
      obtain rfl := Option.some.inj h.2
      exact service.sameTasks_loadForJoin number project
  | registering project tags =>
      obtain rfl := Option.some.inj h
      unfold register
      dsimp only
      split <;> exact ⟨rfl, rfl, rfl, rfl, rfl, rfl⟩
  | greeting project =>
      simp only [greet?] at h
      split at h
      · obtain ⟨outbox, -, rfl⟩ := Option.map_eq_some_iff.mp h
        exact ⟨rfl, rfl, rfl, rfl, rfl, rfl⟩
      · obtain rfl := Option.some.inj h
        exact ⟨rfl, rfl, rfl, rfl, rfl, rfl⟩

theorem happens_step (service : Service) (party : Party) :
    Happens service (.step party) (service.moved (.step party)) := by
  cases party with
  | session number =>
      cases hstep : service.sessionStep? number with
      | none =>
          have hsame : service.moved (.step (.session number)) = service := by
            rw [moved, step?, hstep, Option.getD_none]
          rw [hsame]
          exact .nothing nofun
      | some next =>
          have hnext : service.moved (.step (.session number)) = next := by
            rw [moved, step?, hstep, Option.getD_some]
          rw [hnext]
          exact .conduct nofun (conducts_of_sessionStep? hstep) nofun (sameTasks_sessionStep? hstep)
  | job number =>
      cases hstep : service.jobStep? number with
      | none =>
          have hsame : service.moved (.step (.job number)) = service := by
            rw [moved, step?, hstep, Option.getD_none]
          rw [hsame]
          refine .nothing ?_
          intro other heq
          obtain rfl := Party.job.inj (Move.step.inj heq)
          exact hstep
      | some next =>
          have hnext : service.moved (.step (.job number)) = next := by
            rw [moved, step?, hstep, Option.getD_some]
          rw [hnext]
          obtain ⟨job, hjob, hprogress⟩ := progress_of_jobStep? hstep
          exact .progress hjob hstep hprogress

/-- A session that cannot be called is not. -/
theorem happens_withIdle {act : Session → Service} (hmove : ∀ number, move ≠ .step (.job number))
    (h : ∀ session, service.sessions[number]? = some session → session.isIdle = true →
      Happens service move (act session)) :
    Happens service move (service.withIdle number act) := by
  unfold withIdle
  split
  · rename_i session hsession
    split
    · rename_i hidle
      exact h session hsession hidle
    · exact .nothing fun other heq => absurd heq (hmove other)
  · exact .nothing fun other heq => absurd heq (hmove other)

theorem sameTasks_beginCheck (service : Service) (number : Nat) (session : Session)
    (credential : Option String) :
    (service.beginCheck number session credential).SameTasks service := by
  unfold beginCheck
  split <;> exact ⟨rfl, rfl, rfl, rfl, rfl, rfl⟩

theorem sameTasks_beginJoin (service : Service) (number : Nat) (session : Session)
    (project : Int) : (service.beginJoin number session project).SameTasks service := by
  unfold beginJoin
  dsimp only
  split <;> exact ⟨rfl, rfl, rfl, rfl, rfl, rfl⟩

theorem sameTasks_endSession (service : Service) (number : Nat) (session : Session) :
    (service.endSession number session).SameTasks service := by
  unfold endSession
  split
  · exact .refl service
  · dsimp only
    split <;> split <;> exact ⟨rfl, rfl, rfl, rfl, rfl, rfl⟩

theorem happens_handle (service : Service) (number : Nat) (message : ClientMessage) :
    Happens service (.handle number message) (service.moved (.handle number message)) := by
  refine happens_withIdle nofun ?_
  intro session hsession hidle
  have hconducts := conducts_beginHandle hsession hidle message
  unfold beginHandle at hconducts ⊢
  split at hconducts
  · exact .conduct nofun hconducts nofun ⟨rfl, rfl, rfl, rfl, rfl, rfl⟩
  · exact .conduct nofun hconducts nofun (service.sameTasks_beginCheck number session _)
  · exact .conduct nofun hconducts nofun ⟨rfl, rfl, rfl, rfl, rfl, rfl⟩
  · exact .conduct nofun hconducts nofun (service.sameTasks_beginJoin number session _)
  · exact .conduct nofun hconducts nofun ⟨rfl, rfl, rfl, rfl, rfl, rfl⟩
  · exact .conduct nofun hconducts nofun ⟨rfl, rfl, rfl, rfl, rfl, rfl⟩
  · rename_i project edit hstate
    unfold acceptEdit at hconducts ⊢
    dsimp only at hconducts ⊢
    split at hconducts
    · exact .crash nofun hconducts ⟨rfl, rfl, rfl, rfl, rfl, rfl⟩
    · rename_i delay hdelay
      exact .edit hsession hidle hstate hdelay
  · exact .conduct nofun hconducts nofun ⟨rfl, rfl, rfl, rfl, rfl, rfl⟩

theorem happens_takeMessage (service : Service) (number : Nat) :
    Happens service (.takeMessage number) (service.moved (.takeMessage number)) := by
  show Happens service _ (((service.takeMessage? number).map Prod.snd).getD service)
  cases htake : service.takeMessage? number with
  | none => exact .nothing nofun
  | some taken =>
      obtain ⟨session, message, outbox, hsession, -, rfl⟩ := takeMessage?_eq_some_iff.mp htake
      exact .messages nofun (sameButTold_setOutbox hsession outbox).sameSeats rfl
        ⟨rfl, rfl, rfl, rfl, rfl, rfl⟩

theorem happens_importContainer (service : Service) (project : Int) (vendor : Vendor)
    (format : Option Container.Format) (bytes : ByteArray) :
    Happens service (.importContainer project vendor format bytes)
      (service.moved (.importContainer project vendor format bytes)) := by
  show Happens service _ ((service.importContainer project vendor format bytes).toOption.getD
    service)
  unfold importContainer
  split
  · exact .merge nofun nofun
  · exact .nothing nofun

/-- **What a move does** is one of these. -/
theorem happens_moved (service : Service) (move : Move) :
    Happens service move (service.moved move) := by
  cases move with
  | step party => exact service.happens_step party
  | openSession capacity =>
      show Happens service _ ((service.openSession? capacity).getD service)
      unfold openSession?
      cases Outbox.new? capacity with
      | none => exact .nothing nofun
      | some outbox =>
          exact .opened nofun List.map_append rfl rfl ⟨rfl, rfl, rfl, rfl, rfl, rfl⟩
  | authenticate number credential =>
      refine happens_withIdle nofun ?_
      intro session hsession hidle
      exact .conduct nofun (conducts_beginCheck hsession hidle credential) nofun
        (service.sameTasks_beginCheck number session credential)
  | handle number message => exact service.happens_handle number message
  | close number =>
      refine happens_withIdle nofun ?_
      intro session hsession hidle
      obtain ⟨hjobs, hmerges, hsyncs, hdatabase, hnow, hsettings⟩ :=
        service.sameTasks_endSession number session
      exact .conduct nofun (conducts_close hsession hidle) (fun _ => .inl rfl)
        ⟨hjobs, hmerges, hsyncs, hdatabase, hnow, hsettings⟩
  | drop number =>
      refine happens_withIdle nofun ?_
      intro session hsession hidle
      obtain ⟨hjobs, hmerges, hsyncs, hdatabase, hnow, hsettings⟩ :=
        service.sameTasks_endSession number session
      exact .conduct nofun (conducts_drop hsession hidle) (fun _ => .inr rfl)
        ⟨hjobs, hmerges, hsyncs, hdatabase, hnow, hsettings⟩
  | takeMessage number => exact service.happens_takeMessage number
  | hangUp number =>
      exact .messages nofun (service.sameButTold_updateOutbox number (·.close)).sameSeats rfl
        ⟨rfl, rfl, rfl, rfl, rfl, rfl⟩
  | post number message =>
      exact .messages nofun (service.sameButTold_updateOutbox number (·.offer message)).sameSeats rfl
        ⟨rfl, rfl, rfl, rfl, rfl, rfl⟩
  | merge project origin batch => exact .merge nofun nofun
  | importContainer project vendor format bytes =>
      exact service.happens_importContainer project vendor format bytes
  | startAnnouncement project => exact .announcement project
  | wait duration => exact .wait duration
  | listen events => exact .messages nofun ⟨rfl, rfl⟩ rfl ⟨rfl, rfl, rfl, rfl, rfl, rfl⟩
  | access database => exact .access database

/-- A job only goes on. -/
theorem Happens.eq_or_progress (h : Happens service (.step (.job number)) next)
    (hjob : service.jobs[number]? = some job) :
    next = service ∨ Progress service number job next := by
  cases h with
  | nothing => exact .inl rfl
  | @progress _ found _ hfound hstep hprogress =>
      obtain rfl := Option.some.inj (hjob.symm.trans hfound)
      exact .inr hprogress
  | conduct hmove | crash hmove | opened hmove | messages hmove | merge hmove =>
      exact absurd rfl (hmove number)

/-- What a move does to the standings of sessions and to the registry. -/
inductive SeatsGo (service : Service) (move : Move) (next : Service) : Prop where
  | stay (hsame : next.SameSeats service)
  | conduct {number : Nat} {isEnd : Bool} (hconducts : service.Conducts number isEnd next)
      (hend : isEnd = true → move = .close number ∨ move = .drop number)
  | opened (hstandings : next.standings = service.standings ++ [.fresh])
      (hregistry : next.registry = service.registry)

theorem Happens.seatsGo (h : Happens service move next) : SeatsGo service move next := by
  cases h with
  | nothing => exact .stay (.refl service)
  | progress hjob hstep hprogress => exact .stay (sameButTold_of_progress hprogress).sameSeats
  | conduct hmove hconducts hend htasks => exact .conduct hconducts hend
  | crash hmove hconducts htasks => exact .conduct hconducts nofun
  | edit hsession hidle hstate hdelay =>
      exact .conduct (conducts_withEdit hsession hidle hstate _ _) nofun
  | opened hmove hstandings hregistry hannouncements htasks => exact .opened hstandings hregistry
  | messages hmove hseats hannouncements htasks => exact .stay hseats
  | merge hmove hpurpose => exact .stay ⟨rfl, rfl⟩
  | announcement project => exact .stay ⟨rfl, rfl⟩
  | wait duration => exact .stay ⟨rfl, rfl⟩
  | access database => exact .stay ⟨rfl, rfl⟩

/-! ## Invariants -/

namespace Run

variable {run : Run}

theorem happens (run : Run) (moment : ℕ) :
    Happens (run.state moment) (run.moves moment) (run.state (moment + 1)) :=
  (run.state moment).happens_moved (run.moves moment)

/-! A run begins with nobody there, and with nothing to do. -/

theorem sessions_zero (run : Run) : (run.state 0).sessions = [] := by
  obtain ⟨settings, database, supply, hstart⟩ := run.isNew
  obtain ⟨events, -, hfirst⟩ := Option.map_eq_some_iff.mp hstart
  rw [state, ← hfirst]

theorem jobs_zero (run : Run) : (run.state 0).jobs = [] := by
  obtain ⟨settings, database, supply, hstart⟩ := run.isNew
  obtain ⟨events, -, hfirst⟩ := Option.map_eq_some_iff.mp hstart
  rw [state, ← hfirst]

/-- What holds of new services and is kept by all moves holds at every moment. -/
theorem invariant {holds : Service → Prop}
    (hnew : ∀ settings database supply service,
      start? settings database supply = some service → holds service)
    (hkept : ∀ {service move next}, holds service → Happens service move next → holds next)
    (run : Run) (moment : ℕ) : holds (run.state moment) := by
  induction moment with
  | zero =>
      obtain ⟨settings, database, supply, hstart⟩ := run.isNew
      exact hnew settings database supply run.first hstart
  | succ moment ih => exact hkept ih (run.happens moment)

end Run

end Service

end PlcTags
