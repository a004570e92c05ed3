import PlcTags.Proofs.Service.Closing

/-!
# What becomes of a session

Only its own calls change a session, apart from its outbox.  A call that does not end with an
acceptance leaves the session its identity, and takes nobody in who was not in before
(`Session.Keeps`).  `Fares` has one constructor for each thing that a move can make of a
session, seen from this.
-/

namespace PlcTags

open Live

/-- A session goes on without being accepted: it keeps its identity, and it only checks a
credential that it had or that has just been presented. -/
structure Live.Session.Keeps (session : Session) (presented : Option (Option String))
    (later : Session) : Prop where
  identity : later.identity = session.identity
  state : session.state = .unauthenticated → later.state = .unauthenticated
  checking : ∀ credential, later.call = some (.checking credential) →
    session.call = some (.checking credential) ∨
      session.isIdle = true ∧ presented = some credential

namespace Service

variable {service middle next : Service} {number other : Nat} {session later : Session}
  {move : Move} {job : Job} {project : Int}

/-- The session that a move calls, or whose call goes on with it. -/
def Move.caller? : Move → Option Nat
  | .step (.session number) | .authenticate number _ | .handle number _ | .close number
  | .drop number => some number
  | _ => none

/-- The credential that a move presents. -/
def Move.credential? : Move → Option (Option String)
  | .authenticate _ credential => some credential
  | .handle _ (.auth token) => some (some token)
  | _ => none

/-- A session waits for the authenticator, which accepts its credential. -/
def Admits (service : Service) (number : Nat) (credential : Option String) (identity : String) :
    Prop :=
  ∃ session, service.sessions[number]? = some session ∧
    session.call = some (.checking credential) ∧
    Access.authenticate service.settings.auth service.database credential = .ok identity

theorem updateSession_eq (h : service.sessions[number]? = some session)
    (change : Session → Session) :
    service.updateSession number change = service.setSession number (change session) := by
  rw [updateSession, setSession, List.modify_eq_set_getElem?, h]
  rfl

/-! ## Sessions that go on -/

variable {presented : Option (Option String)}

/-- A session goes on without being accepted, and no other one does. -/
def GoesOn (service : Service) (number : Nat) (session : Session)
    (presented : Option (Option String)) (next : Service) : Prop :=
  ∃ later, next.sessions = service.sessions.set number later ∧ session.Keeps presented later

theorem goesOn_refl (h : service.sessions[number]? = some session) :
    service.GoesOn number session presented service :=
  ⟨session, (set_of_getElem? h).symm, rfl, id, fun _ hcall => .inl hcall⟩

theorem goesOn_updateSession (h : service.sessions[number]? = some session)
    {change : Session → Session} (hkeeps : session.Keeps presented (change session)) :
    service.GoesOn number session presented (service.updateSession number change) :=
  ⟨change session, by rw [updateSession_eq h, setSession], hkeeps⟩

/-- Two changes of a session after each other. -/
theorem goesOn_of_set (h : service.sessions[number]? = some session) {change : Session → Session}
    (hmiddle : middle.sessions = service.sessions.set number later)
    (hkeeps : session.Keeps presented (change later)) :
    service.GoesOn number session presented (middle.updateSession number change) := by
  have hlength := (List.getElem?_eq_some_iff.mp h).1
  have hlater : middle.sessions[number]? = some later := by
    rw [hmiddle, List.getElem?_set_self hlength]
  refine ⟨change later, ?_, hkeeps⟩
  rw [updateSession_eq hlater, setSession, hmiddle]
  exact List.set_set ..

theorem keeps_answer (session : Session) (reply : Option ServerMessage) :
    session.Keeps presented (session.answer reply) :=
  ⟨rfl, id, nofun⟩

theorem goesOn_answer (h : service.sessions[number]? = some session) (reply : ServerMessage) :
    service.GoesOn number session presented (service.answer number reply) :=
  goesOn_updateSession h (keeps_answer session _)

/-- A session that has been accepted may go to any other state. -/
theorem keeps_of_ne (hstate : session.state ≠ .unauthenticated)
    (hidentity : later.identity = session.identity)
    (hcall : ∀ credential, later.call ≠ some (.checking credential)) :
    session.Keeps presented later :=
  ⟨hidentity, fun h => absurd h hstate, fun credential h => absurd h (hcall credential)⟩

theorem goesOn_beginCheck (h : service.sessions[number]? = some session)
    (hidle : session.isIdle = true) (credential : Option String) :
    service.GoesOn number session (some credential)
      (service.beginCheck number session credential) := by
  unfold beginCheck
  split
  · refine goesOn_updateSession h ⟨rfl, id, fun other hother => .inr ⟨hidle, ?_⟩⟩
    rw [Call.checking.inj (Option.some.inj hother)]
  · exact goesOn_answer h _

theorem sessions_leave (h : service.sessions[number]? = some session) (project : Int) :
    (service.leave number project).sessions = service.sessions.set number
      { session with slot := session.slot.cancel, state := .authenticated } := by
  show service.sessions.modify number _ = _
  rw [List.modify_eq_set_getElem?, h]
  rfl

theorem goesOn_beginJoin (h : service.sessions[number]? = some session)
    (hstate : session.state ≠ .unauthenticated) (project : Int) :
    service.GoesOn number session presented (service.beginJoin number session project) := by
  unfold beginJoin
  dsimp only
  split
  · exact goesOn_of_set h (sessions_leave h _) (keeps_of_ne hstate rfl nofun)
  · exact goesOn_updateSession h (keeps_of_ne hstate rfl nofun)

theorem goesOn_acceptEdit (h : service.sessions[number]? = some session)
    (hstate : session.state ≠ .unauthenticated) (edit : Edit) :
    service.GoesOn number session presented
      (service.acceptEdit number session project edit) := by
  unfold acceptEdit
  dsimp only
  split
  · exact goesOn_updateSession h (keeps_of_ne hstate rfl nofun)
  · exact ⟨_, rfl, keeps_of_ne hstate rfl nofun⟩

theorem goesOn_beginHandle (h : service.sessions[number]? = some session)
    (hidle : session.isIdle = true) (message : ClientMessage) :
    service.GoesOn number session (Move.handle number message).credential?
      (service.beginHandle number session message) := by
  unfold beginHandle
  split
  · exact goesOn_answer h _
  · exact goesOn_beginCheck h hidle _
  · exact goesOn_answer h _
  · rename_i hstate
    exact goesOn_beginJoin h hstate _
  · rename_i hstate
    refine goesOn_of_set h (sessions_leave h _) (keeps_of_ne ?_ rfl nofun)
    rw [hstate]
    exact nofun
  · exact goesOn_answer h _
  · rename_i hstate
    refine goesOn_acceptEdit h ?_ _
    rw [hstate]
    exact nofun
  · exact goesOn_answer h _

/-- A session that closes keeps its identity, but its state does not tell so. -/
theorem goesOn_endSession (h : service.sessions[number]? = some session)
    (hidle : session.isIdle = true) {change : Session → Session}
    (hchange : ∀ session : Session, session.call = none → (change session).call = none ∧
      (change session).identity = session.identity ∧ (change session).state = session.state) :
    service.GoesOn number session presented
      ((service.endSession number session).updateSession number change) := by
  have hkeeps : ∀ found : Session, found.call = none → found.identity = session.identity →
      (session.state = .unauthenticated → found.state = .unauthenticated) →
        session.Keeps presented (change found) := by
    intro found hcall hidentity hstate
    obtain ⟨hnone, hsame, hstays⟩ := hchange found hcall
    refine ⟨hsame.trans hidentity, fun hfirst => hstays.trans (hstate hfirst), ?_⟩
    intro credential hchecking
    cases hnone.symm.trans hchecking
  have hcall := call_of_isIdle hidle
  cases hclosed : session.isClosed with
  | true =>
      rw [endSession_of_isClosed hclosed]
      exact goesOn_updateSession h (hkeeps session hcall rfl id)
  | false =>
      obtain ⟨hsessions, -, -⟩ := service.endSession_of_open number hclosed
      exact goesOn_of_set h hsessions (hkeeps (closedSession session) hcall rfl fun _ => rfl)

theorem goesOn_withIdle (h : service.sessions[number]? = some session) {act : Session → Service}
    (hact : session.isIdle = true → service.GoesOn number session presented (act session)) :
    service.GoesOn number session presented (service.withIdle number act) := by
  unfold withIdle
  rw [h]
  dsimp only
  split
  · rename_i hidle
    exact hact hidle
  · exact goesOn_refl h

theorem goesOn_loadForJoin (h : service.sessions[number]? = some session) (project : Int) :
    service.GoesOn number session presented (service.loadForJoin number project) := by
  unfold loadForJoin
  split
  · exact goesOn_updateSession h ⟨rfl, id, nofun⟩
  · exact goesOn_updateSession h (keeps_answer session _)

theorem goesOn_register (h : service.sessions[number]? = some session)
    (hstate : session.state ≠ .unauthenticated) (tags : List StoredTag) :
    service.GoesOn number session presented (service.register number session project tags) := by
  unfold register
  dsimp only
  split
  · exact ⟨_, rfl, keeps_of_ne hstate rfl nofun⟩
  · exact goesOn_of_set h rfl (keeps_of_ne hstate rfl nofun)

theorem goesOn_greet? (h : service.sessions[number]? = some session)
    (hstate : session.state ≠ .unauthenticated)
    (hgreets : service.greet? number session project = some next) :
    service.GoesOn number session presented next := by
  unfold greet? at hgreets
  split at hgreets
  · obtain ⟨outbox, -, rfl⟩ := Option.map_eq_some_iff.mp hgreets
    exact goesOn_of_set h rfl (keeps_of_ne hstate rfl nofun)
  · obtain rfl := Option.some.inj hgreets
    exact goesOn_updateSession h (keeps_of_ne hstate rfl nofun)

/-- The call of a session goes on, or ends because its credential is accepted. -/
theorem goesOn_or_admits (hseated : service.Seated) (h : service.sessions[number]? = some session)
    (hstep : service.sessionStep? number = some next) :
    service.GoesOn number session presented next ∨
      ∃ credential identity, service.Admits number credential identity ∧
        ∃ later : Session, next.sessions = service.sessions.set number later ∧
          later.identity = some identity ∧ later.call = none := by
  have hsound := hseated.isSound (getElem?_standings h)
  unfold sessionStep? at hstep
  rw [h, Option.bind_eq_bind, Option.bind_some] at hstep
  obtain ⟨call, hcall, hstep⟩ := Option.bind_eq_some_iff.mp hstep
  -- Only a session that has been accepted is about to join a project.
  have hjoining : ∀ project : Int, session.standing.announcementWanted = some project →
      session.state ≠ .unauthenticated := by
    intro project hwanted hstate
    have hjoined : session.state = .authenticated := hsound.joining (by simp [hwanted])
    cases hstate.symm.trans hjoined
  have hcall' : session.standing.call = some call := hcall
  cases call with
  | checking credential =>
      obtain rfl := Option.some.inj hstep
      unfold checkCredential
      split
      · rename_i identity haccepted
        exact .inr ⟨credential, identity, ⟨session, h, hcall, haccepted⟩, _, rfl, rfl, rfl⟩
      · exact .inl (goesOn_answer h _)
  | joining project =>
      obtain ⟨-, hstep⟩ := Option.ite_none_right_eq_some.mp hstep
      obtain rfl := Option.some.inj hstep
      exact .inl (goesOn_loadForJoin h project)
  | registering project tags =>
      obtain rfl := Option.some.inj hstep
      have hwanted := Standing.announcementWanted_iff.mpr (.inr (.inl ⟨tags, hcall'⟩))
      exact .inl (goesOn_register h (hjoining project hwanted) tags)
  | greeting project =>
      have hwanted := Standing.announcementWanted_iff.mpr (.inr (.inr hcall'))
      exact .inl (goesOn_greet? h (hjoining project hwanted) hstep)

/-! ## Sessions that others act beside -/

/-- A session has at most been told something. -/
def Hears (service : Service) (number : Nat) (next : Service) : Prop :=
  ∀ later, next.sessions[number]? = some later →
    ∃ session, service.sessions[number]? = some session ∧
      later = { session with outbox := later.outbox }

theorem hears_of_sessions (h : next.sessions = service.sessions) : service.Hears number next := by
  intro later hlater
  exact ⟨later, h ▸ hlater, rfl⟩

theorem SameButTold.hears (h : next.SameButTold service) : service.Hears number next :=
  fun _ hlater => h.exists_session hlater

theorem hears_of_set (hne : other ≠ number)
    (h : next.sessions = service.sessions.set other later) : service.Hears number next := by
  intro found hfound
  rw [h, List.getElem?_set_ne hne] at hfound
  exact ⟨found, hfound, rfl⟩

theorem GoesOn.hears (h : service.GoesOn other session presented next) (hne : other ≠ number) :
    service.Hears number next := by
  obtain ⟨later, hsessions, -⟩ := h
  exact hears_of_set hne hsessions

/-! ## What a move makes of a session -/

/-- What a move makes of a session that is there afterwards. -/
inductive Fares (service : Service) (move : Move) (number : Nat) (later : Session) : Prop where
  /-- Others act. -/
  | hears {session : Session} (hsession : service.sessions[number]? = some session)
      (hcaller : move.caller? ≠ some number)
      (hsame : later = { session with outbox := later.outbox })
  | keeps {session : Session} (hsession : service.sessions[number]? = some session)
      (hcaller : move.caller? = some number) (hkeeps : session.Keeps move.credential? later)
  | admitted {credential : Option String} {identity : String}
      (hmove : move = .step (.session number))
      (hadmits : service.Admits number credential identity)
      (hidentity : later.identity = some identity) (hcall : later.call = none)
  | opened (hfresh : later = { id := later.id, outbox := later.outbox })

theorem fares_refl (move : Move) (h : service.sessions[number]? = some later) :
    Fares service move number later := by
  by_cases hcaller : move.caller? = some number
  · exact .keeps h hcaller ⟨rfl, id, fun _ hcall => .inl hcall⟩
  · exact .hears h hcaller rfl

theorem Hears.fares (h : service.Hears number next) (hcaller : move.caller? ≠ some number)
    (hlater : next.sessions[number]? = some later) : Fares service move number later := by
  obtain ⟨session, hsession, hsame⟩ := h later hlater
  exact .hears hsession hcaller hsame

theorem GoesOn.fares (h : service.GoesOn other session move.credential? next)
    (hsession : service.sessions[other]? = some session) (hcaller : move.caller? = some other)
    (hlater : next.sessions[number]? = some later) : Fares service move number later := by
  by_cases hother : other = number
  · subst hother
    obtain ⟨found, hsessions, hkeeps⟩ := h
    have hlength := (List.getElem?_eq_some_iff.mp hsession).1
    rw [hsessions, List.getElem?_set_self hlength] at hlater
    obtain rfl := Option.some.inj hlater
    exact .keeps hsession hcaller hkeeps
  · refine (h.hears hother).fares ?_ hlater
    rw [hcaller]
    exact fun heq => hother (Option.some.inj heq)

theorem fares_withIdle {act : Session → Service} (hcaller : move.caller? = some other)
    (hact : ∀ session : Session, service.sessions[other]? = some session →
      session.isIdle = true → service.GoesOn other session move.credential? (act session))
    (hlater : (service.withIdle other act).sessions[number]? = some later) :
    Fares service move number later := by
  cases hsession : service.sessions[other]? with
  | none =>
      have hsame : service.withIdle other act = service := by rw [withIdle, hsession]
      rw [hsame] at hlater
      exact fares_refl move hlater
  | some session =>
      exact (goesOn_withIdle hsession (hact session hsession)).fares hsession hcaller hlater

theorem fares_step (hseated : service.Seated) (party : Party)
    (hlater : (service.moved (.step party)).sessions[number]? = some later) :
    Fares service (.step party) number later := by
  rw [moved] at hlater
  cases hstep : service.step? party with
  | none =>
      rw [hstep] at hlater
      exact fares_refl _ hlater
  | some next =>
      rw [hstep, Option.getD_some] at hlater
      cases party with
      | job index =>
          obtain ⟨job, -, hprogress⟩ := progress_of_jobStep? hstep
          exact (sameButTold_of_progress hprogress).hears.fares (Option.some_ne_none number).symm
            hlater
      | session caller =>
          obtain ⟨session, hsession, -⟩ := Option.bind_eq_some_iff.mp hstep
          rcases goesOn_or_admits hseated hsession hstep with hgo |
            ⟨credential, identity, hadmits, found, hsessions, hidentity, hcall⟩
          · have hgo : service.GoesOn caller session (Move.step (.session caller)).credential?
                next := hgo
            exact hgo.fares hsession rfl hlater
          · by_cases hother : caller = number
            · subst hother
              have hlength := (List.getElem?_eq_some_iff.mp hsession).1
              rw [hsessions, List.getElem?_set_self hlength] at hlater
              obtain rfl := Option.some.inj hlater
              exact .admitted rfl hadmits hidentity hcall
            · refine (hears_of_set hother hsessions).fares ?_ hlater
              exact fun heq => hother (Option.some.inj heq)

theorem fares_openSession (capacity : Nat)
    (hlater : ((service.openSession? capacity).getD service).sessions[number]? = some later) :
    Fares service (.openSession capacity) number later := by
  unfold openSession? Outbox.new? at hlater
  split at hlater
  · change (service.sessions ++ [_])[number]? = some later at hlater
    rcases of_getElem?_concat hlater with hold | ⟨-, rfl⟩
    · exact fares_refl _ hold
    · exact .opened rfl
  · exact fares_refl _ hlater

/-- **What a move makes of a session** is one of these. -/
theorem fares_moved (hseated : service.Seated)
    (hlater : (service.moved move).sessions[number]? = some later) :
    Fares service move number later := by
  -- Calls to the session move it; all other moves at most put messages into its queue.
  cases move with
  | step party => exact fares_step hseated party hlater
  | openSession capacity => exact fares_openSession capacity hlater
  | authenticate other credential =>
      refine fares_withIdle rfl (fun session hsession hidle => ?_) hlater
      exact goesOn_beginCheck hsession hidle credential
  | handle other message =>
      refine fares_withIdle rfl (fun session hsession hidle => ?_) hlater
      exact goesOn_beginHandle hsession hidle message
  | close other =>
      refine fares_withIdle rfl (fun session hsession hidle => ?_) hlater
      exact goesOn_endSession hsession hidle fun _ _ => ⟨rfl, rfl, rfl⟩
  | drop other =>
      refine fares_withIdle rfl (fun session hsession hidle => ?_) hlater
      exact goesOn_endSession hsession hidle fun _ hcall => ⟨hcall, rfl, rfl⟩
  | takeMessage other =>
      exact (service.sameButTold_takeMessage other).hears.fares nofun hlater
  | hangUp other =>
      exact (service.sameButTold_updateOutbox other (·.close)).hears.fares nofun hlater
  | post other message =>
      exact (service.sameButTold_updateOutbox other (·.offer message)).hears.fares nofun hlater
  | importContainer project vendor format bytes =>
      have hhears : service.Hears number
          ((service.importContainer project vendor format bytes).toOption.getD service) := by
        unfold importContainer
        split <;> exact hears_of_sessions rfl
      exact hhears.fares nofun hlater
  | merge | startAnnouncement | wait | listen | access =>
      have hhears : service.Hears number service := hears_of_sessions rfl
      exact hhears.fares nofun hlater

end Service

end PlcTags
