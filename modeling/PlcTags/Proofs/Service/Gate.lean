import PlcTags.Proofs.Service.Fares

/-!
# The gate

Whoever opens a session may present credentials in it, and until one of them is accepted
that is all that comes of it: the session stays as it was opened, answers `pong` or an error,
and what it is asked to do is noticed by nobody else (`Session.IsUnaccepted`, `Stays`).  A
session whose state is another one has an identity, and it is the one that the authenticator
has returned for a credential that was presented in this session (`Run.gate`).
-/

namespace PlcTags

open Live

/-! ## Sessions -/

namespace Live.Session

variable {session later : Session}

/-- Nobody has been accepted in this session, and it has said nothing that is not for
everybody. -/
structure IsUnaccepted (session : Session) : Prop where
  state : session.state = .unauthenticated
  identity : session.identity = none
  slot : session.slot = {}
  call : ∀ call, session.call = some call → ∃ credential, call = .checking credential
  reply : ∀ message, session.reply = some message →
    message = .pong ∨ ∃ text, message = .error text

theorem IsUnaccepted.answer (h : session.IsUnaccepted) {message : ServerMessage}
    (hmessage : message = .pong ∨ ∃ text, message = .error text) :
    (session.answer (some message)).IsUnaccepted where
  state := h.state
  identity := h.identity
  slot := h.slot
  call := nofun
  reply := by
    intro other hother
    rwa [← Option.some.inj hother]

theorem IsUnaccepted.check (h : session.IsUnaccepted) (credential : Option String) :
    (session.await (.checking credential)).IsUnaccepted where
  state := h.state
  identity := h.identity
  slot := h.slot
  call := by
    intro other hother
    exact ⟨credential, (Option.some.inj hother).symm⟩
  reply := nofun

theorem isUnaccepted_fresh (id : Uuid) (outbox : Outbox) :
    IsUnaccepted { id, outbox } where
  state := rfl
  identity := rfl
  slot := rfl
  call := nofun
  reply := nofun

end Live.Session

namespace Service

variable {service : Service} {number : Nat} {session later : Session} {move : Move}

/-! ## Sessions that nobody has been accepted in -/

/-- Nothing of the service is another but such a session, which has only gone on by itself:
there is no other message in its outbox. -/
def Stays (service : Service) (number : Nat) (session : Session) (next : Service) : Prop :=
  ∃ later : Session, later.IsUnaccepted ∧ later.outbox = session.outbox ∧
    next = service.setSession number later

theorem stays_refl (h : service.sessions[number]? = some session)
    (hunaccepted : session.IsUnaccepted) : service.Stays number session service := by
  refine ⟨session, hunaccepted, rfl, ?_⟩
  rw [setSession, set_of_getElem? h]

theorem stays_answer (h : service.sessions[number]? = some session)
    (hunaccepted : session.IsUnaccepted) {message : ServerMessage}
    (hmessage : message = .pong ∨ ∃ text, message = .error text) :
    service.Stays number session (service.answer number message) :=
  ⟨session.answer (some message), hunaccepted.answer hmessage, rfl, updateSession_eq h _⟩

theorem stays_beginCheck (h : service.sessions[number]? = some session)
    (hunaccepted : session.IsUnaccepted) (credential : Option String) :
    service.Stays number session (service.beginCheck number session credential) := by
  rw [beginCheck, if_pos hunaccepted.state]
  exact ⟨_, hunaccepted.check credential, rfl, updateSession_eq h _⟩

theorem stays_beginHandle (h : service.sessions[number]? = some session)
    (hunaccepted : session.IsUnaccepted) (message : ClientMessage) :
    service.Stays number session (service.beginHandle number session message) := by
  cases message with
  | ping => exact stays_answer h hunaccepted (.inl rfl)
  | auth token => exact stays_beginCheck h hunaccepted (some token)
  | subscribe | unsubscribe | syncEdit =>
      simp only [beginHandle, hunaccepted.state]
      exact stays_answer h hunaccepted (.inr ⟨_, rfl⟩)

/-- Closing such a session only marks it. -/
theorem endSession_eq (h : service.sessions[number]? = some session)
    (hunaccepted : session.IsUnaccepted) :
    service.endSession number session =
      service.setSession number { session with isClosed := true } := by
  have hproject : session.project? = none := by
    rw [Session.project?, hunaccepted.state]
  have hcancel : session.slot.cancel = session.slot := by
    rw [hunaccepted.slot]
    rfl
  unfold endSession
  cases hclosed : session.isClosed with
  | true =>
      have hsame : { session with isClosed := true } = session := by
        rw [← hclosed]
      rw [if_pos rfl, hsame, setSession, set_of_getElem? h]
  | false =>
      simp only [Bool.false_eq_true, if_false, hproject, hunaccepted.identity, hcancel,
        Option.isSome_none, ← hunaccepted.state]

theorem stays_endSession (h : service.sessions[number]? = some session)
    (hunaccepted : session.IsUnaccepted) {change : Session → Session}
    (hchange : ∀ session : Session, session.IsUnaccepted → (change session).IsUnaccepted ∧
      (change session).outbox = session.outbox) :
    service.Stays number session
      ((service.endSession number session).updateSession number change) := by
  obtain ⟨hstate, hidentity, hslot, hcall, hreply⟩ := hunaccepted
  obtain ⟨hlater, houtbox⟩ := hchange { session with isClosed := true }
    ⟨hstate, hidentity, hslot, hcall, hreply⟩
  refine ⟨change { session with isClosed := true }, hlater, houtbox, ?_⟩
  have hlength := (List.getElem?_eq_some_iff.mp h).1
  rw [endSession_eq h ⟨hstate, hidentity, hslot, hcall, hreply⟩,
    updateSession_eq (List.getElem?_set_self hlength)]
  unfold setSession
  simp only [List.set_set]

theorem stays_withIdle (h : service.sessions[number]? = some session)
    (hunaccepted : session.IsUnaccepted) {act : Session → Service}
    (hact : service.Stays number session (act session)) :
    service.Stays number session (service.withIdle number act) := by
  unfold withIdle
  rw [h]
  dsimp only
  split
  · exact hact
  · exact stays_refl h hunaccepted

theorem stays_sessionStep? (h : service.sessions[number]? = some session)
    (hunaccepted : session.IsUnaccepted)
    (hrefused : ∀ credential identity, ¬ service.Admits number credential identity) :
    service.Stays number session ((service.sessionStep? number).getD service) := by
  unfold sessionStep?
  rw [h, Option.bind_eq_bind, Option.bind_some]
  cases hcall : session.call with
  | none => exact stays_refl h hunaccepted
  | some call =>
      obtain ⟨credential, rfl⟩ := hunaccepted.call call hcall
      show service.Stays number session (service.checkCredential number session credential)
      unfold checkCredential
      split
      · rename_i identity haccepted
        exact absurd ⟨session, h, hcall, haccepted⟩ (hrefused credential identity)
      · exact stays_answer h hunaccepted (.inr ⟨_, rfl⟩)

/-- **Until somebody is accepted in a session**, nobody can notice what it is called to do. -/
theorem stays_moved (h : service.sessions[number]? = some session)
    (hunaccepted : session.IsUnaccepted) (hcaller : move.caller? = some number)
    (hrefused : move = .step (.session number) →
      ∀ credential identity, ¬ service.Admits number credential identity) :
    service.Stays number session (service.moved move) := by
  cases move with
  | step party =>
      cases party with
      | session found =>
          obtain rfl := Option.some.inj hcaller
          exact stays_sessionStep? h hunaccepted (hrefused rfl)
      | job found => cases hcaller
  | authenticate found credential =>
      obtain rfl := Option.some.inj hcaller
      exact stays_withIdle h hunaccepted (stays_beginCheck h hunaccepted credential)
  | handle found message =>
      obtain rfl := Option.some.inj hcaller
      exact stays_withIdle h hunaccepted (stays_beginHandle h hunaccepted message)
  | close found =>
      obtain rfl := Option.some.inj hcaller
      refine stays_withIdle h hunaccepted (stays_endSession h hunaccepted ?_)
      intro session hsession
      exact ⟨⟨hsession.state, hsession.identity, hsession.slot, nofun, nofun⟩, rfl⟩
  | drop found =>
      obtain rfl := Option.some.inj hcaller
      refine stays_withIdle h hunaccepted (stays_endSession h hunaccepted ?_)
      intro session ⟨hstate, hidentity, hslot, hcall, hreply⟩
      exact ⟨⟨hstate, hidentity, hslot, hcall, hreply⟩, rfl⟩
  | _ => cases hcaller

/-! ## Runs -/

namespace Run

variable {run : Run} {moment : ℕ} {credential : Option String} {identity : String}

/-- A credential is presented to a session that can be called. -/
def Presents (run : Run) (moment : ℕ) (number : Nat) (credential : Option String) : Prop :=
  (run.moves moment).caller? = some number ∧ (run.moves moment).credential? = some credential ∧
    ∃ session, (run.state moment).sessions[number]? = some session ∧ session.isIdle = true

/-- The authenticator accepts a credential of a session, and returns an identity for it. -/
def Admits (run : Run) (moment : ℕ) (number : Nat) (credential : Option String)
    (identity : String) : Prop :=
  run.moves moment = .step (.session number) ∧
    (run.state moment).Admits number credential identity

theorem fares (run : Run) (moment : ℕ)
    (hlater : (run.state (moment + 1)).sessions[number]? = some later) :
    Fares (run.state moment) (run.moves moment) number later :=
  fares_moved (run.seated moment) hlater

/-- A credential that is checked has been presented before. -/
theorem presents_of_checking (run : Run) (moment : ℕ)
    (hsession : (run.state moment).sessions[number]? = some session)
    (hcall : session.call = some (.checking credential)) :
    ∃ earlier < moment, run.Presents earlier number credential := by
  induction moment generalizing session with
  | zero =>
      rw [sessions_zero] at hsession
      cases hsession
  | succ moment ih =>
      have hbefore : (∃ found : Session, (run.state moment).sessions[number]? = some found ∧
          found.call = some (.checking credential)) →
          ∃ earlier < moment + 1, run.Presents earlier number credential := by
        rintro ⟨found, hfound, hchecking⟩
        obtain ⟨earlier, hlt, hpresents⟩ := ih hfound hchecking
        exact ⟨earlier, Nat.lt_succ_of_lt hlt, hpresents⟩
      cases run.fares moment hsession with
      | @hears found hfound hcaller hsame =>
          rw [hsame] at hcall
          exact hbefore ⟨found, hfound, hcall⟩
      | @keeps found hfound hcaller hkeeps =>
          rcases hkeeps.checking credential hcall with hchecking | ⟨hidle, hcredential⟩
          · exact hbefore ⟨found, hfound, hchecking⟩
          · exact ⟨moment, Nat.lt_succ_self moment, hcaller, hcredential, found, hfound, hidle⟩
      | admitted hmove hadmits hidentity hnone => cases hnone.symm.trans hcall
      | opened hfresh =>
          rw [hfresh] at hcall
          cases hcall

/-- Whoever is in a session has been admitted before. -/
theorem admits_of_state (run : Run) (moment : ℕ)
    (hsession : (run.state moment).sessions[number]? = some session)
    (hstate : session.state ≠ .unauthenticated) :
    ∃ identity, session.identity = some identity ∧
      ∃ earlier < moment, ∃ credential, run.Admits earlier number credential identity := by
  induction moment generalizing session with
  | zero =>
      rw [sessions_zero] at hsession
      cases hsession
  | succ moment ih =>
      have hbefore : (∃ found : Session, (run.state moment).sessions[number]? = some found ∧
          found.state ≠ .unauthenticated ∧ session.identity = found.identity) →
          ∃ identity, session.identity = some identity ∧ ∃ earlier < moment + 1, ∃ credential,
            run.Admits earlier number credential identity := by
        rintro ⟨found, hfound, haccepted, hsame⟩
        obtain ⟨identity, hidentity, earlier, hlt, hadmits⟩ := ih hfound haccepted
        exact ⟨identity, hsame.trans hidentity, earlier, Nat.lt_succ_of_lt hlt, hadmits⟩
      cases run.fares moment hsession with
      | @hears found hfound hcaller hsame =>
          rw [hsame] at hstate
          exact hbefore ⟨found, hfound, hstate, by rw [hsame]⟩
      | @keeps found hfound hcaller hkeeps =>
          exact hbefore ⟨found, hfound, fun h => hstate (hkeeps.state h), hkeeps.identity⟩
      | @admitted credential identity hmove hadmits hidentity hnone =>
          exact ⟨identity, hidentity, moment, Nat.lt_succ_self moment, credential, hmove, hadmits⟩
      | opened hfresh =>
          rw [hfresh] at hstate
          exact absurd rfl hstate

/-- Until somebody is admitted to a session it stays as it was opened. -/
theorem isUnaccepted (run : Run) (moment : ℕ)
    (hsession : (run.state moment).sessions[number]? = some session)
    (hnobody : ∀ earlier < moment, ∀ credential identity,
      ¬ run.Admits earlier number credential identity) : session.IsUnaccepted := by
  induction moment generalizing session with
  | zero =>
      rw [sessions_zero] at hsession
      cases hsession
  | succ moment ih =>
      have hbefore : ∀ found, (run.state moment).sessions[number]? = some found →
          found.IsUnaccepted :=
        fun found hfound => ih hfound fun earlier hlt => hnobody earlier (Nat.lt_succ_of_lt hlt)
      have hrefused := hnobody moment (Nat.lt_succ_self moment)
      -- Only an admission could change the session, and there was none.
      cases run.fares moment hsession with
      | @hears found hfound hcaller hsame =>
          rw [hsame]
          obtain ⟨hstate, hidentity, hslot, hcall, hreply⟩ := hbefore found hfound
          exact ⟨hstate, hidentity, hslot, hcall, hreply⟩
      | @keeps found hfound hcaller hkeeps =>
          obtain ⟨later, hlater, -, hnext⟩ := stays_moved hfound (hbefore found hfound) hcaller
            fun hmove credential identity hadmits => hrefused credential identity ⟨hmove, hadmits⟩
          have hlength := (List.getElem?_eq_some_iff.mp hfound).1
          have hstate : run.state (moment + 1) = (run.state moment).setSession number later := hnext
          rw [hstate, setSession, List.getElem?_set_self hlength] at hsession
          obtain rfl := Option.some.inj hsession
          exact hlater
      | @admitted credential identity hmove hadmits hidentity hnone =>
          exact absurd ⟨hmove, hadmits⟩ (hrefused credential identity)
      | opened hfresh =>
          rw [hfresh]
          exact Session.isUnaccepted_fresh ..

/-- **The gate.**  Until the authenticator accepts a credential of a session, nobody is in
the session, it answers `pong` or an error, and its calls are noticed by nobody else.  And
whoever is in a session has the identity that the authenticator returned for a credential
that was presented in this session. -/
theorem gate (run : Run) (moment : ℕ)
    (hsession : (run.state moment).sessions[number]? = some session) :
    ((∀ earlier < moment, ∀ credential identity,
        ¬ run.Admits earlier number credential identity) →
      session.IsUnaccepted ∧
        ((run.moves moment).caller? = some number →
          (∀ credential identity, ¬ run.Admits moment number credential identity) →
            (run.state moment).Stays number session (run.state (moment + 1)))) ∧
    (session.state ≠ .unauthenticated →
      ∃ identity, session.identity = some identity ∧
        ∃ credential accepted presented, presented < accepted ∧ accepted < moment ∧
          run.Presents presented number credential ∧
          run.Admits accepted number credential identity) := by
  constructor
  · intro hnobody
    have hunaccepted := run.isUnaccepted moment hsession hnobody
    refine ⟨hunaccepted, fun hcaller hrefused => ?_⟩
    refine stays_moved hsession hunaccepted hcaller ?_
    exact fun hmove credential identity hadmits => hrefused credential identity ⟨hmove, hadmits⟩
  · intro hstate
    obtain ⟨identity, hidentity, accepted, hlt, credential, hmove, hadmits⟩ :=
      run.admits_of_state moment hsession hstate
    obtain ⟨found, hfound, hcall, -⟩ := id hadmits
    obtain ⟨presented, hbefore, hpresents⟩ := run.presents_of_checking accepted hfound hcall
    exact ⟨identity, hidentity, credential, accepted, presented, hbefore, hlt, hpresents,
      hmove, hadmits⟩

/-- A service that knows one token. -/
def guardedService : Service where
  settings := { auth := { tokens := [⟨"secret", "ann"⟩] } }
  database := {}
  events := { capacity := 256 }

/-- A session wants to join a project, presents no credential, and then the right one. -/
def guardedRun : Run where
  first := guardedService
  isNew := ⟨guardedService.settings, {}, {}, rfl⟩
  moves moment := [
    Move.openSession 8, .handle 0 (.subscribe 7), .authenticate 0 none, .step (.session 0),
    .handle 0 .ping, .handle 0 (.auth "secret"), .step (.session 0)].getD moment (.wait 0)

theorem not_admits_guarded : ∀ earlier < 4, ∀ credential identity,
    ¬ guardedRun.Admits earlier 0 credential identity := by
  rintro earlier hlt credential identity ⟨hmove, session, hsession, hcall, haccepted⟩
  obtain rfl | rfl | rfl | rfl : earlier = 0 ∨ earlier = 1 ∨ earlier = 2 ∨ earlier = 3 := by omega
  · cases hmove
  · cases hmove
  · cases hmove
  · have hchecking : (guardedRun.state 3).sessions[0]?.map (·.call) =
        some (some (.checking none)) := by decide +kernel
    rw [hsession, Option.map_some, hcall] at hchecking
    obtain rfl := Call.checking.inj (Option.some.inj (Option.some.inj hchecking))
    have hmissing : (Access.authenticate (guardedRun.state 3).settings.auth
        (guardedRun.state 3).database none).toOption = none := by decide +kernel
    rw [haccepted] at hmissing
    cases hmissing

theorem gate_guarded :
    (∃ session, (guardedRun.state 4).sessions[0]? = some session ∧ session.IsUnaccepted ∧
      (guardedRun.state 4).Stays 0 session (guardedRun.state 5)) ∧
    ∃ session, (guardedRun.state 7).sessions[0]? = some session ∧
      session.identity = some "ann" ∧
      ∃ credential accepted presented, presented < accepted ∧ accepted < 7 ∧
        guardedRun.Presents presented 0 credential ∧
        guardedRun.Admits accepted 0 credential "ann" := by
  constructor
  · have hthere : (guardedRun.state 4).sessions[0]?.isSome = true := by decide +kernel
    obtain ⟨session, hsession⟩ := Option.isSome_iff_exists.mp hthere
    obtain ⟨hunaccepted, hstays⟩ := (guardedRun.gate 4 hsession).1 not_admits_guarded
    exact ⟨session, hsession, hunaccepted, hstays rfl fun _ _ hadmits => by cases hadmits.1⟩
  · have hlast : (guardedRun.state 7).sessions[0]?.map
        (fun session => (session.state, session.identity)) =
          some (.authenticated, some "ann") := by decide +kernel
    obtain ⟨session, hsession, hshape⟩ := Option.map_eq_some_iff.mp hlast
    obtain ⟨hstate, hann⟩ := Prod.mk.inj hshape
    obtain ⟨identity, hidentity, hadmitted⟩ := (guardedRun.gate 7 hsession).2 (by simp [hstate])
    obtain rfl := Option.some.inj (hidentity.symm.trans hann)
    exact ⟨session, hsession, hann, hadmitted⟩

end Run

end Service

end PlcTags
