import Mathlib.Data.List.Basic
import PlcTags.Proofs.Service.Progress
import PlcTags.Service.Call

/-!
# How a session goes on

The standing of a session is all that its next call depends on: its state, its slot, the
call that it is busy with, and whether it has closed or is gone.  `Conduct` has one
constructor for each way in which calls, and the steps of calls, change the standing of
their session, together with what they do to the registry of subscribers and to the
lines for announcements.  Nothing else changes standings or the registry: jobs and
clients only put messages into outboxes and take them out.
-/

namespace PlcTags

open Live

namespace Live

/-- Where a session stands. -/
structure Standing where
  state : SessionState
  slot : Slot
  call : Option Call
  isClosed : Bool
  isDropped : Bool

namespace Standing

/-- A session that has just been opened. -/
def fresh : Standing where
  state := .unauthenticated
  slot := {}
  call := none
  isClosed := false
  isDropped := false

/-- The session can be called. -/
def isIdle (standing : Standing) : Bool :=
  !standing.isDropped && standing.call.isNone

/-- The session has closed, and perhaps it is gone. -/
def closed (standing : Standing) (isDropped : Bool) : Standing where
  state := .unauthenticated
  slot := standing.slot.cancel
  call := standing.call
  isClosed := true
  isDropped := isDropped

/-- The session has left its project. -/
def left (standing : Standing) : Standing :=
  { standing with state := .authenticated, slot := standing.slot.cancel }

theorem isIdle_iff {standing : Standing} :
    standing.isIdle = true ↔ standing.isDropped = false ∧ standing.call = none := by
  simp [isIdle]

end Standing

def Session.standing (session : Session) : Standing where
  state := session.state
  slot := session.slot
  call := session.call
  isClosed := session.isClosed
  isDropped := session.isDropped

/-- A session apart from what it is told. -/
def Session.silenced (session : Session) : Session :=
  { session with outbox := { capacity := 0 } }

end Live

namespace Service

variable {service middle next : Service} {number : Nat} {session : Session} {project : Int}

def standings (service : Service) : List Standing :=
  service.sessions.map Session.standing

/-- What is known of sessions is the same. -/
structure SameSeats (next service : Service) : Prop where
  standings : next.standings = service.standings
  registry : next.registry = service.registry

theorem SameSeats.refl (service : Service) : service.SameSeats service :=
  ⟨rfl, rfl⟩

/-! ## Changes of one session -/

theorem set_of_getElem? {α : Type} {items : List α} {item : α} (h : items[number]? = some item) :
    items.set number item = items := by
  obtain ⟨hlength, rfl⟩ := List.getElem?_eq_some_iff.mp h
  exact List.set_getElem_self hlength

/-- An entry of a list that has got one more was there before, or is the new one. -/
theorem of_getElem?_concat {α : Type} {items : List α} {item found : α}
    (h : (items ++ [item])[number]? = some found) :
    items[number]? = some found ∨ number = items.length ∧ found = item := by
  rcases Nat.lt_or_ge number items.length with hlt | hle
  · rw [List.getElem?_append_left hlt] at h
    exact .inl h
  · obtain ⟨hlength, -⟩ := List.getElem?_eq_some_iff.mp h
    rw [List.length_append, List.length_singleton] at hlength
    obtain rfl : number = items.length := Nat.le_antisymm (Nat.le_of_lt_succ hlength) hle
    rw [List.getElem?_concat_length] at h
    exact .inr ⟨rfl, (Option.some.inj h).symm⟩

/-- Whoever looks for something that the new entry has not got finds what was there before. -/
theorem bind_getElem?_concat {α β : Type} {items : List α} {item : α} {look : α → Option β}
    (h : look item = none) : (items ++ [item])[number]?.bind look = items[number]?.bind look := by
  cases hfound : (items ++ [item])[number]? with
  | none =>
      have hlength := List.getElem?_eq_none_iff.mp hfound
      rw [List.length_append] at hlength
      rw [List.getElem?_eq_none (Nat.le_of_add_right_le hlength)]
  | some found =>
      rcases of_getElem?_concat hfound with hold | ⟨rfl, rfl⟩
      · rw [hold]
      · rw [Option.bind_some, h, List.getElem?_eq_none (Nat.le_refl _), Option.bind_none]

theorem getElem?_standings (h : service.sessions[number]? = some session) :
    service.standings[number]? = some session.standing := by
  rw [standings, List.getElem?_map, h, Option.map_some]

theorem exists_of_getElem?_standings {standing : Standing}
    (h : service.standings[number]? = some standing) :
    ∃ session, service.sessions[number]? = some session ∧ session.standing = standing := by
  rw [standings, List.getElem?_map] at h
  exact Option.map_eq_some_iff.mp h

theorem standings_setSession (service : Service) (number : Nat) (session : Session) :
    (service.setSession number session).standings =
      service.standings.set number session.standing := by
  rw [standings, setSession, List.map_set]
  rfl

theorem standings_updateSession (h : service.sessions[number]? = some session)
    (change : Session → Session) :
    (service.updateSession number change).standings =
      service.standings.set number (change session).standing := by
  rw [standings, updateSession, List.modify_eq_set_getElem?, h]
  exact List.map_set

/-! ## What is told -/

/-- Sessions have at most been told something, and the registry, the numbers of edits, the
clock and the settings are the same. -/
structure SameButTold (next service : Service) : Prop where
  sessions : next.sessions.map Session.silenced = service.sessions.map Session.silenced
  registry : next.registry = service.registry
  syncs : next.syncs = service.syncs
  now : next.now = service.now
  settings : next.settings = service.settings

theorem SameButTold.refl (service : Service) : service.SameButTold service :=
  ⟨rfl, rfl, rfl, rfl, rfl⟩

theorem SameButTold.trans (h : next.SameButTold middle) (h' : middle.SameButTold service) :
    next.SameButTold service where
  sessions := h.sessions.trans h'.sessions
  registry := h.registry.trans h'.registry
  syncs := h.syncs.trans h'.syncs
  now := h.now.trans h'.now
  settings := h.settings.trans h'.settings

theorem SameButTold.sameSeats (h : next.SameButTold service) : next.SameSeats service where
  standings := by
    have hstandings := congrArg (List.map Session.standing) h.sessions
    rwa [List.map_map, List.map_map] at hstandings
  registry := h.registry

/-- A session that is there afterwards has been there before, with another outbox perhaps. -/
theorem SameButTold.exists_session (h : next.SameButTold service)
    (hlater : next.sessions[number]? = some session) :
    ∃ before, service.sessions[number]? = some before ∧
      session = { before with outbox := session.outbox } := by
  have hsilenced := congrArg (·[number]?) h.sessions
  simp only [List.getElem?_map, hlater, Option.map_some] at hsilenced
  obtain ⟨before, hbefore, hsame⟩ := Option.map_eq_some_iff.mp hsilenced.symm
  refine ⟨before, hbefore, ?_⟩
  exact congrArg (fun silenced : Session => { silenced with outbox := session.outbox }) hsame.symm

theorem sameButTold_updateOutbox (service : Service) (number : Nat)
    (change : Outbox → Outbox) :
    (service.updateSession number fun session =>
      { session with outbox := change session.outbox }).SameButTold service := by
  refine ⟨List.ext_getElem? fun other => ?_, rfl, rfl, rfl, rfl⟩
  rw [List.getElem?_map, List.getElem?_map, updateSession, List.getElem?_modify]
  cases service.sessions[other]? with
  | none => rfl
  | some session =>
      simp only [Option.map_eq_map, Option.map_some]
      split <;> rfl

theorem sameButTold_setOutbox (h : service.sessions[number]? = some session) (outbox : Outbox) :
    (service.setSession number { session with outbox }).SameButTold service := by
  have hset : service.updateSession number (fun session => { session with outbox }) =
      service.setSession number { session with outbox } := by
    rw [updateSession, setSession, List.modify_eq_set_getElem?, h]
    rfl
  rw [← hset]
  exact service.sameButTold_updateOutbox number fun _ => outbox

theorem sameButTold_takeMessage (service : Service) (number : Nat) :
    (((service.takeMessage? number).map Prod.snd).getD service).SameButTold service := by
  cases htake : service.takeMessage? number with
  | none => exact .refl service
  | some taken =>
      obtain ⟨session, message, outbox, hsession, -, rfl⟩ := takeMessage?_eq_some_iff.mp htake
      exact sameButTold_setOutbox hsession outbox

theorem sameButTold_deliver (service : Service) (project : Int) (message : ServerMessage) :
    (service.deliver project message).SameButTold service := by
  unfold deliver
  generalize service.registry.subscribers project = numbers
  induction numbers generalizing service with
  | nil => exact .refl service
  | cons number rest ih =>
      exact (ih _).trans (service.sameButTold_updateOutbox number (·.offer message))

theorem sameButTold_tell (service : Service) (number : Nat) (pass : Pass)
    (message : ServerMessage) : (service.tell number pass message).SameButTold service := by
  obtain ⟨hsessions, hregistry, hsyncs, hnow, hsettings⟩ :=
    service.sameButTold_updateOutbox pass.session (·.send (.job number) message)
  exact ⟨hsessions, hregistry, hsyncs, hnow, hsettings⟩

theorem sameButTold_endAnnouncement (service : Service) (number : Nat) (job : Job)
    (report : Option MergeReport) (diagnostics : List Diagnostic) (result : Except Failure Nat) :
    (service.endAnnouncement number job report diagnostics result).SameButTold service := by
  unfold endAnnouncement
  dsimp only
  split
  · exact (sameButTold_tell _ number _ _).trans ⟨rfl, rfl, rfl, rfl, rfl⟩
  all_goals exact ⟨rfl, rfl, rfl, rfl, rfl⟩

/-- **A job does nothing to sessions but tell them something.** -/
theorem sameButTold_of_progress {job : Job} (h : Progress service number job next) :
    next.SameButTold service := by
  cases h with
  | unloaded =>
      unfold failMerge
      split
      · exact (sameButTold_tell _ number _ _).trans ⟨rfl, rfl, rfl, rfl, rfl⟩
      all_goals exact ⟨rfl, rfl, rfl, rfl, rfl⟩
  | finished =>
      unfold endMerge
      dsimp only
      split <;> exact ⟨rfl, rfl, rfl, rfl, rfl⟩
  | unlisted => exact service.sameButTold_endAnnouncement number job _ _ _
  | delivered =>
      exact (sameButTold_endAnnouncement _ number job _ _ _).trans
        (service.sameButTold_deliver job.project _)
  | admitted hpass hstage hsession houtbox =>
      obtain ⟨hsessions, hregistry, hsyncs, hnow, hsettings⟩ := sameButTold_setOutbox hsession _
      exact ⟨hsessions, hregistry, hsyncs, hnow, hsettings⟩
  | _ => exact ⟨rfl, rfl, rfl, rfl, rfl⟩

/-! ## What calls do -/

/-- How a call, or a step of it, leaves the standing of its session, the registry and the
lines for announcements.  The flag marks the calls that are to be the end of the
session. -/
inductive Conduct (service : Service) (number : Nat) (standing : Standing) :
    Bool → Standing → Registry Nat → Locks → Prop where
  /-- The session only answers. -/
  | answers {isEnd : Bool} :
      Conduct service number standing isEnd standing service.registry service.announcements
  | checks (credential : Option String) (hidle : standing.isIdle = true)
      (hstate : standing.state = .unauthenticated) :
      Conduct service number standing false { standing with call := some (.checking credential) }
        service.registry service.announcements
  | accepted {credential : Option String} (hcall : standing.call = some (.checking credential)) :
      Conduct service number standing false { standing with state := .authenticated, call := none }
        service.registry service.announcements
  | refused {credential : Option String} (hcall : standing.call = some (.checking credential)) :
      Conduct service number standing false { standing with call := none }
        service.registry service.announcements
  | leaves {project : Int} (hidle : standing.isIdle = true)
      (hstate : standing.state = .subscribed project) :
      Conduct service number standing false standing.left (service.registry.leave project number)
        service.announcements
  /-- A session without a project asks for one. -/
  | asks (project : Int) (hidle : standing.isIdle = true)
      (hstate : standing.state = .authenticated) :
      Conduct service number standing false { standing with call := some (.joining project) }
        service.registry (service.announcements.ask project (.session number))
  /-- A session leaves its project and asks for another one, or for the same. -/
  | moves (project : Int) {previous : Int} (hidle : standing.isIdle = true)
      (hstate : standing.state = .subscribed previous) :
      Conduct service number standing false { standing.left with call := some (.joining project) }
        (service.registry.leave previous number)
        (service.announcements.ask project (.session number))
  | loads {project : Int} (tags : List StoredTag) (hcall : standing.call = some (.joining project))
      (hturn : service.announcements.isHeldBy project (.session number) = true) :
      Conduct service number standing false
        { standing with call := some (.registering project tags) }
        service.registry service.announcements
  | fails {project : Int} (hcall : standing.call = some (.joining project))
      (hturn : service.announcements.isHeldBy project (.session number) = true) :
      Conduct service number standing false { standing with call := none }
        service.registry (service.announcements.release project (.session number))
  /-- The session is registered, and its tags wait for room. -/
  | registers {project : Int} {tags : List StoredTag}
      (hcall : standing.call = some (.registering project tags)) :
      Conduct service number standing false { standing with call := some (.greeting project) }
        (service.registry.join project number) service.announcements
  | joins {project : Int} {tags : List StoredTag}
      (hcall : standing.call = some (.registering project tags)) :
      Conduct service number standing false
        { standing with state := .subscribed project, call := none }
        (service.registry.join project number)
        (service.announcements.release project (.session number))
  | greets {project : Int} (hcall : standing.call = some (.greeting project)) :
      Conduct service number standing false
        { standing with state := .subscribed project, call := none }
        service.registry (service.announcements.release project (.session number))
  | edits {project : Int} (hidle : standing.isIdle = true)
      (hstate : standing.state = .subscribed project) :
      Conduct service number standing false { standing with slot := standing.slot.arm }
        service.registry service.announcements
  | closes (isDropped : Bool) (hidle : standing.isIdle = true)
      (hopen : standing.isClosed = false)
      (hstate : ∀ project, standing.state ≠ .subscribed project) :
      Conduct service number standing true (standing.closed isDropped)
        service.registry service.announcements
  | closesIn (isDropped : Bool) {project : Int} (hidle : standing.isIdle = true)
      (hopen : standing.isClosed = false) (hstate : standing.state = .subscribed project) :
      Conduct service number standing true (standing.closed isDropped)
        (service.registry.leave project number) service.announcements
  /-- A session goes that has closed before. -/
  | goes (hidle : standing.isIdle = true) (hclosed : standing.isClosed = true) :
      Conduct service number standing true { standing with isDropped := true }
        service.registry service.announcements

/-- The session of this number has gone on. -/
def Conducts (service : Service) (number : Nat) (isEnd : Bool) (next : Service) : Prop :=
  ∃ standing later, service.standings[number]? = some standing ∧
    Conduct service number standing isEnd later next.registry next.announcements ∧
    next.standings = service.standings.set number later

theorem conducts_of_set {isEnd : Bool} {later : Standing} {registry : Registry Nat}
    {announcements : Locks}
    (h : service.sessions[number]? = some session)
    (hconduct : Conduct service number session.standing isEnd later registry announcements)
    (hregistry : next.registry = registry) (hannouncements : next.announcements = announcements)
    (hstandings : next.standings = service.standings.set number later) :
    service.Conducts number isEnd next := by
  subst hregistry hannouncements
  exact ⟨session.standing, later, getElem?_standings h, hconduct, hstandings⟩

/-- A session only answers. -/
theorem conducts_answer (h : service.sessions[number]? = some session) {reply : ServerMessage}
    (hidle : session.call = none) :
    service.Conducts number false (service.answer number reply) := by
  refine conducts_of_set h .answers rfl rfl ?_
  have hsame : (session.answer (some reply)).standing = session.standing := by
    simp only [Session.standing, Session.answer, hidle]
  rw [answer, standings_updateSession h, hsame]

/-! ## The steps of calls -/

theorem conducts_checkCredential (h : service.sessions[number]? = some session)
    {credential : Option String} (hcall : session.call = some (.checking credential)) :
    service.Conducts number false (service.checkCredential number session credential) := by
  unfold checkCredential
  split
  · exact conducts_of_set h (.accepted hcall) rfl rfl (standings_setSession ..)
  · exact conducts_of_set h (.refused hcall) rfl rfl (standings_updateSession h _)

theorem conducts_loadForJoin (h : service.sessions[number]? = some session)
    (hcall : session.call = some (.joining project))
    (hturn : service.announcements.isHeldBy project (.session number) = true) :
    service.Conducts number false (service.loadForJoin number project) := by
  unfold loadForJoin
  split
  · rename_i tags hloads
    exact conducts_of_set h (.loads tags hcall hturn) rfl rfl (standings_updateSession h _)
  · exact conducts_of_set h (.fails hcall hturn) rfl rfl (standings_updateSession h _)

/-- What is left of a join is to set the state of the session. -/
theorem standings_endJoin {later : Session} (h : service.sessions[number]? = some session)
    (middle : Service) (hmiddle : middle.sessions = service.sessions.set number later)
    (project : Int) : (middle.endJoin number project).standings = service.standings.set number
      { later.standing with state := .subscribed project, call := none } := by
  have hlength := (List.getElem?_eq_some_iff.mp h).1
  have hlater : middle.sessions[number]? = some later := by
    rw [hmiddle, List.getElem?_set_self hlength]
  have hstandings : middle.standings = service.standings.set number later.standing := by
    rw [standings, hmiddle, List.map_set]
    rfl
  have hended := standings_updateSession hlater
    fun session => { session with state := .subscribed project }.answer none
  rw [hstandings, List.set_set] at hended
  exact hended

theorem conducts_register (h : service.sessions[number]? = some session)
    {tags : List StoredTag} (hcall : session.call = some (.registering project tags)) :
    service.Conducts number false (service.register number session project tags) := by
  unfold register
  dsimp only
  split
  · exact conducts_of_set h (.registers hcall) rfl rfl (standings_setSession ..)
  · have hended := standings_endJoin h
      ({ service with registry := service.registry.join project number }.setSession number
        ({ session with
          outbox := session.outbox.send (.session number) (.subscribed project tags) }.await
            (.greeting project))) rfl project
    exact conducts_of_set h (.joins hcall) rfl rfl hended

theorem conducts_greet? (h : service.sessions[number]? = some session)
    (hcall : session.call = some (.greeting project))
    (hgreets : service.greet? number session project = some next) :
    service.Conducts number false next := by
  unfold greet? at hgreets
  split at hgreets
  · obtain ⟨outbox, -, rfl⟩ := Option.map_eq_some_iff.mp hgreets
    exact conducts_of_set h (.greets hcall) rfl rfl
      (standings_endJoin h (service.setSession number { session with outbox }) rfl project)
  · obtain rfl := Option.some.inj hgreets
    have hsame : service.sessions = service.sessions.set number session :=
      (set_of_getElem? h).symm
    exact conducts_of_set h (.greets hcall) rfl rfl (standings_endJoin h service hsame project)

theorem conducts_of_sessionStep? (h : service.sessionStep? number = some next) :
    service.Conducts number false next := by
  unfold sessionStep? at h
  obtain ⟨session, hsession, h⟩ := Option.bind_eq_some_iff.mp h
  obtain ⟨call, hcall, h⟩ := Option.bind_eq_some_iff.mp h
  cases call with
  | checking credential =>
      obtain rfl := Option.some.inj h
      exact conducts_checkCredential hsession hcall
  | joining project =>
      simp only [Option.ite_none_right_eq_some] at h
      obtain ⟨hturn, h⟩ := h
      obtain rfl := Option.some.inj h
      exact conducts_loadForJoin hsession hcall hturn
  | registering project tags =>
      obtain rfl := Option.some.inj h
      exact conducts_register hsession hcall
  | greeting project => exact conducts_greet? hsession hcall h

/-! ## The beginnings of calls -/

theorem isIdle_standing (session : Session) : session.standing.isIdle = session.isIdle := rfl

theorem call_of_isIdle (h : session.isIdle = true) : session.call = none := by
  rw [← isIdle_standing] at h
  exact (Standing.isIdle_iff.mp h).2

theorem conducts_beginCheck (h : service.sessions[number]? = some session)
    (hidle : session.isIdle = true) (credential : Option String) :
    service.Conducts number false (service.beginCheck number session credential) := by
  unfold beginCheck
  split
  · rename_i hstate
    exact conducts_of_set h (.checks credential hidle hstate) rfl rfl
      (standings_updateSession h _)
  · exact conducts_answer h (call_of_isIdle hidle)

theorem project?_eq_some_iff :
    session.project? = some project ↔ session.state = .subscribed project := by
  unfold Session.project?
  split <;> simp_all

theorem project?_eq_none_iff :
    session.project? = none ↔ ∀ project, session.state ≠ .subscribed project := by
  unfold Session.project?
  split <;> simp_all

theorem standings_leave (h : service.sessions[number]? = some session) (project : Int) :
    (service.leave number project).standings =
      service.standings.set number session.standing.left :=
  standings_updateSession h _

/-- The session as it is when it has left its project. -/
theorem getElem?_sessions_leave (h : service.sessions[number]? = some session)
    (project : Int) : (service.leave number project).sessions[number]? =
      some { session with slot := session.slot.cancel, state := .authenticated } := by
  show (service.sessions.modify number _)[number]? = _
  rw [List.getElem?_modify_eq, h]
  rfl

theorem conducts_leave (h : service.sessions[number]? = some session)
    (hidle : session.isIdle = true) (hstate : session.state = .subscribed project)
    (reply : ServerMessage) :
    service.Conducts number false ((service.leave number project).answer number reply) := by
  have hcall := call_of_isIdle hidle
  refine conducts_of_set h (.leaves hidle hstate) rfl rfl ?_
  rw [answer, standings_updateSession (getElem?_sessions_leave h project), standings_leave h,
    List.set_set]
  simp only [Session.standing, Session.answer, Standing.left, hcall]

theorem conducts_beginJoin (h : service.sessions[number]? = some session)
    (hidle : session.isIdle = true) (hstate : session.state ≠ .unauthenticated)
    (project : Int) :
    service.Conducts number false (service.beginJoin number session project) := by
  unfold beginJoin
  dsimp only
  split
  · rename_i previous hprevious
    have hsubscribed := project?_eq_some_iff.mp hprevious
    refine conducts_of_set h (.moves project hidle hsubscribed) rfl rfl ?_
    have hended := standings_updateSession (getElem?_sessions_leave h previous)
      (·.await (.joining project))
    rw [standings_leave h, List.set_set] at hended
    exact hended
  · rename_i hnone
    have hauthenticated : session.state = .authenticated := by
      have hfree := project?_eq_none_iff.mp hnone
      cases hsession : session.state with
      | unauthenticated => exact absurd hsession hstate
      | authenticated => rfl
      | subscribed project => exact absurd hsession (hfree project)
    exact conducts_of_set h (.asks project hidle hauthenticated) rfl rfl
      (standings_updateSession h _)

theorem conducts_acceptEdit (h : service.sessions[number]? = some session)
    (hidle : session.isIdle = true) (hstate : session.state = .subscribed project)
    (edit : Edit) :
    service.Conducts number false (service.acceptEdit number session project edit) := by
  have hcall := call_of_isIdle hidle
  unfold acceptEdit
  dsimp only
  split
  · refine conducts_of_set h .answers rfl rfl ((standings_updateSession h _).trans ?_)
    simp only [Session.standing, Session.answer, hcall]
  · refine conducts_of_set h (.edits hidle hstate) rfl rfl ((standings_setSession ..).trans ?_)
    simp only [Session.standing, Session.answer, hcall]
    rfl

theorem conducts_beginHandle (h : service.sessions[number]? = some session)
    (hidle : session.isIdle = true) (message : ClientMessage) :
    service.Conducts number false (service.beginHandle number session message) := by
  have hcall := call_of_isIdle hidle
  unfold beginHandle
  split
  · exact conducts_answer h hcall
  · exact conducts_beginCheck h hidle _
  · exact conducts_answer h hcall
  · rename_i hstate
    exact conducts_beginJoin h hidle hstate _
  · rename_i hstate
    exact conducts_leave h hidle hstate _
  · exact conducts_answer h hcall
  · rename_i hstate
    exact conducts_acceptEdit h hidle hstate _
  · exact conducts_answer h hcall

/-- A session as it is when it has closed. -/
def closedSession (session : Session) : Session :=
  { session with slot := session.slot.cancel, state := .unauthenticated, isClosed := true }

/-- What closing a session does.  Whether it was ever accepted decides only about an
event. -/
theorem endSession_of_open (service : Service) (number : Nat)
    (hopen : session.isClosed = false) :
    (service.endSession number session).sessions =
        service.sessions.set number (closedSession session) ∧
      (service.endSession number session).registry =
        (match session.project? with
          | some project => service.registry.leave project number
          | none => service.registry) ∧
      (service.endSession number session).announcements = service.announcements := by
  unfold endSession
  rw [hopen]
  simp only [Bool.false_eq_true, if_false]
  cases session.project? with
  | some project => split <;> exact ⟨rfl, rfl, rfl⟩
  | none => split <;> exact ⟨rfl, rfl, rfl⟩

theorem standings_endSession (h : service.sessions[number]? = some session)
    (hopen : session.isClosed = false) {isDropped : Bool} {change : Session → Session}
    (hchange : (change (closedSession session)).standing = session.standing.closed isDropped) :
    ((service.endSession number session).updateSession number change).standings =
      service.standings.set number (session.standing.closed isDropped) := by
  have hlength := (List.getElem?_eq_some_iff.mp h).1
  obtain ⟨hsessions, -, -⟩ := service.endSession_of_open number hopen
  have hclosed := (congrArg (·[number]?) hsessions).trans (List.getElem?_set_self hlength)
  rw [standings_updateSession hclosed, hchange, standings, hsessions, List.map_set, List.set_set]
  rfl

theorem conducts_endSession (h : service.sessions[number]? = some session)
    (hidle : session.isIdle = true) (hopen : session.isClosed = false) (isDropped : Bool)
    {change : Session → Session}
    (hchange : (change (closedSession session)).standing = session.standing.closed isDropped) :
    service.Conducts number true
      ((service.endSession number session).updateSession number change) := by
  obtain ⟨-, hregistry, hannouncements⟩ := service.endSession_of_open number hopen
  have hstandings := standings_endSession h hopen hchange
  cases hproject : session.project? with
  | some project =>
      rw [hproject] at hregistry
      exact conducts_of_set h
        (.closesIn isDropped hidle hopen (project?_eq_some_iff.mp hproject))
        hregistry hannouncements hstandings
  | none =>
      rw [hproject] at hregistry
      exact conducts_of_set h
        (.closes isDropped hidle hopen (project?_eq_none_iff.mp hproject))
        hregistry hannouncements hstandings

theorem endSession_of_isClosed (h : session.isClosed = true) :
    service.endSession number session = service := by
  rw [endSession, h]
  rfl

theorem conducts_close (h : service.sessions[number]? = some session)
    (hidle : session.isIdle = true) : service.Conducts number true
      ((service.endSession number session).updateSession number (·.answer none)) := by
  have hcall := call_of_isIdle hidle
  have hdropped : session.isDropped = false := by
    rw [← isIdle_standing] at hidle
    exact (Standing.isIdle_iff.mp hidle).1
  cases hclosed : session.isClosed with
  | false =>
      refine conducts_endSession h hidle hclosed false ?_
      simp only [Session.standing, Session.answer, Standing.closed, closedSession, hdropped, hcall]
  | true =>
      rw [endSession_of_isClosed hclosed]
      refine conducts_of_set h .answers rfl rfl ((standings_updateSession h _).trans ?_)
      simp only [Session.standing, Session.answer, hcall]

theorem conducts_drop (h : service.sessions[number]? = some session)
    (hidle : session.isIdle = true) : service.Conducts number true
      ((service.endSession number session).updateSession number
        ({ · with isDropped := true })) := by
  cases hclosed : session.isClosed with
  | false => exact conducts_endSession h hidle hclosed true rfl
  | true =>
      rw [endSession_of_isClosed hclosed]
      exact conducts_of_set h (.goes hidle hclosed) rfl rfl (standings_updateSession h _)

end Service

end PlcTags
