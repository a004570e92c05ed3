import PlcTags.Proofs.Service.Edits
import PlcTags.Proofs.Service.Fares
import PlcTags.Settings.File

/-!
# What settings can do to the service

Nothing looks at the numbers of a settings file before they are used.  A service without room
for events cannot be started, and without room for a message no session can be opened.  And
an edit that asks for a delay crashes its session if the bounds of delays are crossed.

Nothing else crashes a session: all that calls, jobs and clients do keeps calm
(`calm_or_breaks`), so in a run with any other settings nobody can do it
(`Run.FaresWith.stays`), and an edit that asks for a delay gets one between the bounds.
-/

namespace PlcTags

open Live

/-! ## Delays -/

namespace SyncSettings

variable {settings : SyncSettings} {asked : Option Nat}

/-- Only an edit that asks for a delay gets none, and only if the bounds are crossed. -/
theorem debounceDelay?_eq_none_iff : settings.debounceDelay? asked = none ↔
    asked.isSome = true ∧ settings.maxDebounceMs < settings.minDebounceMs := by
  cases asked with
  | none => simp [debounceDelay?]
  | some asked =>
      simp only [debounceDelay?, Option.isSome_some, true_and, ite_eq_right_iff, reduceCtorEq,
        imp_false, Nat.not_le]

/-- A delay that was asked for is brought between the bounds. -/
theorem exists_debounceDelay? (h : settings.minDebounceMs ≤ settings.maxDebounceMs)
    (hasked : asked.isSome = true) : ∃ delay, settings.debounceDelay? asked = some delay ∧
      settings.minDebounceMs ≤ delay ∧ delay ≤ settings.maxDebounceMs := by
  obtain ⟨asked, rfl⟩ := Option.isSome_iff_exists.mp hasked
  refine ⟨min (max asked settings.minDebounceMs) settings.maxDebounceMs, if_pos h, ?_, ?_⟩
  · omega
  · omega

end SyncSettings

namespace Service

variable {service middle next : Service} {number : Nat} {session later : Session} {project : Int}

/-! ## Room -/

theorem exists_start?_iff {settings : Settings} {database : Database} {supply : Supply} :
    (∃ first, start? settings database supply = some first) ↔
      0 < settings.sync.eventCapacity ∧ settings.sync.eventCapacity ≤ EventBus.maxCapacity := by
  rw [← Option.isSome_iff_exists, start?, Option.isSome_map, EventBus.new?, Option.isSome_ite]

theorem exists_openSession?_iff {capacity : Nat} :
    (∃ next, service.openSession? capacity = some next) ↔
      0 < capacity ∧ capacity ≤ Outbox.maxCapacity := by
  rw [← Option.isSome_iff_exists, openSession?, Option.isSome_map, Outbox.new?, Option.isSome_ite]

/-! ## Calm -/

/-- Whoever has crashed had crashed before. -/
def KeepsCalm (service next : Service) : Prop :=
  ∀ (number : Nat) (later : Session), next.sessions[number]? = some later →
    later.hasCrashed = true →
      ∃ session, service.sessions[number]? = some session ∧ session.hasCrashed = true

theorem KeepsCalm.refl (service : Service) : service.KeepsCalm service :=
  fun _ later hlater hcrashed => ⟨later, hlater, hcrashed⟩

theorem KeepsCalm.trans (h : service.KeepsCalm middle) (h' : middle.KeepsCalm next) :
    service.KeepsCalm next := by
  intro number later hlater hcrashed
  obtain ⟨between, hbetween, hbetweenCrashed⟩ := h' number later hlater hcrashed
  exact h number between hbetween hbetweenCrashed

/-- To be told something crashes nobody. -/
theorem calm_of_hears (h : ∀ number, service.Hears number next) : service.KeepsCalm next := by
  intro number later hlater hcrashed
  obtain ⟨session, hsession, hsame⟩ := h number later hlater
  refine ⟨session, hsession, ?_⟩
  rw [hsame] at hcrashed
  exact hcrashed

theorem calm_updateSession (service : Service) (number : Nat) {change : Session → Session}
    (hchange : ∀ session : Session, (change session).hasCrashed = session.hasCrashed) :
    service.KeepsCalm (service.updateSession number change) := by
  intro other later hlater hcrashed
  rw [updateSession, List.getElem?_modify] at hlater
  obtain ⟨session, hsession, rfl⟩ := Option.map_eq_some_iff.mp hlater
  refine ⟨session, hsession, ?_⟩
  split at hcrashed
  · rwa [hchange] at hcrashed
  · exact hcrashed

theorem calm_setSession (h : service.sessions[number]? = some session)
    (hsame : later.hasCrashed = session.hasCrashed) :
    service.KeepsCalm (service.setSession number later) := by
  intro other found hfound hcrashed
  rw [setSession, List.getElem?_set] at hfound
  split at hfound
  · rename_i heq
    subst heq
    split at hfound
    · obtain rfl := Option.some.inj hfound
      exact ⟨session, h, hsame ▸ hcrashed⟩
    · cases hfound
  · exact ⟨found, hfound, hcrashed⟩

/-! ## Calls -/

theorem calm_answer (service : Service) (number : Nat) (reply : ServerMessage) :
    service.KeepsCalm (service.answer number reply) :=
  service.calm_updateSession number fun _ => rfl

theorem calm_beginCheck (service : Service) (number : Nat) (session : Session)
    (credential : Option String) :
    service.KeepsCalm (service.beginCheck number session credential) := by
  unfold beginCheck
  split
  · exact service.calm_updateSession number fun _ => rfl
  · exact service.calm_answer number _

theorem calm_leave (service : Service) (number : Nat) (project : Int) :
    service.KeepsCalm (service.leave number project) :=
  calm_updateSession { service with registry := service.registry.leave project number } number
    fun _ => rfl

theorem calm_beginJoin (service : Service) (number : Nat) (session : Session) (project : Int) :
    service.KeepsCalm (service.beginJoin number session project) := by
  unfold beginJoin
  dsimp only
  split
  · exact (service.calm_leave number _).trans (calm_updateSession _ number fun _ => rfl)
  · exact calm_updateSession service number fun _ => rfl

theorem calm_endSession (h : service.sessions[number]? = some session) :
    service.KeepsCalm (service.endSession number session) := by
  cases hclosed : session.isClosed with
  | true =>
      rw [endSession_of_isClosed hclosed]
      exact .refl service
  | false =>
      obtain ⟨hsessions, -, -⟩ := service.endSession_of_open number hclosed
      intro other later hlater hcrashed
      rw [hsessions] at hlater
      have hcalm : service.KeepsCalm (service.setSession number (closedSession session)) :=
        calm_setSession h rfl
      exact hcalm other later hlater hcrashed

theorem calm_withIdle {act : Session → Service}
    (hact : ∀ session, service.sessions[number]? = some session →
      service.KeepsCalm (act session)) : service.KeepsCalm (service.withIdle number act) := by
  unfold withIdle
  split
  · rename_i session hsession
    split
    · exact hact session hsession
    · exact .refl service
  · exact .refl service

theorem calm_checkCredential (h : service.sessions[number]? = some session)
    (credential : Option String) :
    service.KeepsCalm (service.checkCredential number session credential) := by
  unfold checkCredential
  split
  · exact calm_setSession h rfl
  · exact service.calm_answer number _

theorem calm_loadForJoin (service : Service) (number : Nat) (project : Int) :
    service.KeepsCalm (service.loadForJoin number project) := by
  unfold loadForJoin
  split
  · exact service.calm_updateSession number fun _ => rfl
  · exact calm_updateSession service number fun _ => rfl

theorem calm_endJoin (service : Service) (number : Nat) (project : Int) :
    service.KeepsCalm (service.endJoin number project) :=
  calm_updateSession service number fun _ => rfl

theorem calm_register (h : service.sessions[number]? = some session) (project : Int)
    (tags : List StoredTag) :
    service.KeepsCalm (service.register number session project tags) := by
  unfold register
  dsimp only
  have hregistered : service.KeepsCalm
      ({ service with registry := service.registry.join project number }.setSession number
        ({ session with
          outbox := session.outbox.send (.session number) (.subscribed project tags) }.await
            (.greeting project))) :=
    calm_setSession h rfl
  split
  · exact hregistered
  · exact hregistered.trans (calm_endJoin _ number project)

theorem calm_greet? (h : service.sessions[number]? = some session)
    (hgreets : service.greet? number session project = some next) : service.KeepsCalm next := by
  unfold greet? at hgreets
  split at hgreets
  · obtain ⟨outbox, -, rfl⟩ := Option.map_eq_some_iff.mp hgreets
    have hset : service.KeepsCalm (service.setSession number { session with outbox }) :=
      calm_setSession h rfl
    exact hset.trans (calm_endJoin _ number project)
  · obtain rfl := Option.some.inj hgreets
    exact service.calm_endJoin number project

theorem calm_sessionStep? (h : service.sessionStep? number = some next) :
    service.KeepsCalm next := by
  unfold sessionStep? at h
  obtain ⟨session, hsession, h⟩ := Option.bind_eq_some_iff.mp h
  obtain ⟨call, -, h⟩ := Option.bind_eq_some_iff.mp h
  cases call with
  | checking credential =>
      obtain rfl := Option.some.inj h
      exact calm_checkCredential hsession credential
  | joining project =>
      obtain ⟨-, h⟩ := Option.ite_none_right_eq_some.mp h
      obtain rfl := Option.some.inj h
      exact service.calm_loadForJoin number project
  | registering project tags =>
      obtain rfl := Option.some.inj h
      exact calm_register hsession project tags
  | greeting project => exact calm_greet? hsession h

/-! ## Edits that break a session -/

/-- The session gets an edit that asks for a delay. -/
structure AsksDelay (service : Service) (number : Nat) (session : Session) (edit : Edit) :
    Prop where
  found : service.sessions[number]? = some session
  idle : session.isIdle = true
  subscribed : ∃ project, session.state = .subscribed project
  asks : edit.debounceMs.isSome = true

variable {edit : Edit}

theorem AsksDelay.handle_eq (h : service.AsksDelay number session edit) :
    ∃ project, service.handle number (.syncEdit edit) =
      service.acceptEdit number session project edit := by
  obtain ⟨project, hstate⟩ := h.subscribed
  refine ⟨project, ?_⟩
  rw [handle, withIdle_of_idle h.found h.idle]
  simp only [beginHandle, hstate]

/-- If the bounds are crossed, such an edit crashes its session. -/
theorem AsksDelay.crashes (h : service.AsksDelay number session edit)
    (hcrossed : service.settings.sync.maxDebounceMs < service.settings.sync.minDebounceMs) :
    ∃ later, (service.handle number (.syncEdit edit)).sessions[number]? = some later ∧
      later.hasCrashed = true := by
  obtain ⟨project, hhandle⟩ := h.handle_eq
  have hdelay : service.settings.sync.debounceDelay? edit.debounceMs = none :=
    SyncSettings.debounceDelay?_eq_none_iff.mpr ⟨h.asks, hcrossed⟩
  rw [hhandle, acceptEdit]
  simp only [hdelay]
  exact ⟨_, getElem?_sessions_updateSession h.found, rfl⟩

/-- A message keeps calm, unless it is such an edit, which concerns its session alone. -/
theorem calm_or_breaks_beginHandle (h : service.sessions[number]? = some session)
    (hidle : session.isIdle = true) (message : ClientMessage) :
    service.KeepsCalm (service.beginHandle number session message) ∨
      service.settings.sync.maxDebounceMs < service.settings.sync.minDebounceMs ∧
        (∃ edit, message = .syncEdit edit ∧ service.AsksDelay number session edit) ∧
        ∀ other, other ≠ number →
          (service.beginHandle number session message).sessions[other]? =
            service.sessions[other]? := by
  unfold beginHandle
  split
  · exact .inl (service.calm_answer number _)
  · exact .inl (service.calm_beginCheck number session _)
  · exact .inl (service.calm_answer number _)
  · exact .inl (service.calm_beginJoin number session _)
  · exact .inl ((service.calm_leave number _).trans (calm_answer _ number _))
  · exact .inl (service.calm_answer number _)
  · rename_i edit project hstate
    unfold acceptEdit
    dsimp only
    split
    · rename_i hdelay
      -- The delay cannot be limited, because the bounds are crossed.
      obtain ⟨hasks, hcrossed⟩ := SyncSettings.debounceDelay?_eq_none_iff.mp hdelay
      refine .inr ⟨hcrossed, ⟨edit, rfl, h, hidle, ⟨project, hstate⟩, hasks⟩, ?_⟩
      intro other hother
      exact List.getElem?_modify_ne _ _ hother.symm
    · have hnext : { service with syncs := service.syncs + 1 }.sessions[number]? = some session :=
        h
      exact .inl (calm_setSession hnext rfl)
  · exact .inl (service.calm_answer number _)

theorem calm_openSession (service : Service) (capacity : Nat) :
    service.KeepsCalm ((service.openSession? capacity).getD service) := by
  unfold openSession? Outbox.new?
  split
  · intro number later hlater hcrashed
    change (service.sessions ++ [_])[number]? = some later at hlater
    rcases of_getElem?_concat hlater with hold | ⟨-, rfl⟩
    · exact ⟨later, hold, hcrashed⟩
    · cases hcrashed
  · exact .refl service

theorem calm_importContainer (service : Service) (project : Int) (vendor : Vendor)
    (format : Option Container.Format) (bytes : ByteArray) :
    service.KeepsCalm
      ((service.importContainer project vendor format bytes).toOption.getD service) := by
  unfold importContainer
  split <;> exact calm_of_hears fun _ => hears_of_sessions rfl

theorem calm_step (service : Service) (party : Party) :
    service.KeepsCalm (service.moved (.step party)) := by
  rw [moved]
  cases hstep : service.step? party with
  | none => exact .refl service
  | some next =>
      cases party with
      | session number => exact calm_sessionStep? hstep
      | job index =>
          obtain ⟨job, -, hprogress⟩ := progress_of_jobStep? hstep
          exact calm_of_hears fun _ => (sameButTold_of_progress hprogress).hears

/-- Everything but a message keeps calm. -/
theorem calm_moved {move : Move} (h : ∀ number message, move ≠ .handle number message) :
    service.KeepsCalm (service.moved move) := by
  cases move with
  | handle number message => exact absurd rfl (h number message)
  | step party => exact service.calm_step party
  | openSession capacity => exact service.calm_openSession capacity
  | authenticate number credential =>
      exact calm_withIdle fun session _ => service.calm_beginCheck number session credential
  | close number =>
      refine calm_withIdle fun session hsession => ?_
      exact (calm_endSession hsession).trans (calm_updateSession _ number fun _ => rfl)
  | drop number =>
      refine calm_withIdle fun session hsession => ?_
      exact (calm_endSession hsession).trans (calm_updateSession _ number fun _ => rfl)
  | takeMessage number =>
      exact calm_of_hears fun _ => (service.sameButTold_takeMessage number).hears
  | hangUp number =>
      exact calm_of_hears fun _ => (service.sameButTold_updateOutbox number (·.close)).hears
  | post number message =>
      exact calm_of_hears fun _ => (service.sameButTold_updateOutbox number (·.offer message)).hears
  | importContainer project vendor format bytes =>
      exact service.calm_importContainer project vendor format bytes
  | merge | startAnnouncement | wait | listen | access =>
      exact calm_of_hears fun _ => hears_of_sessions rfl

/-! ## Runs -/

namespace Run

variable {run : Run} {moment : ℕ}

theorem settings_state (run : Run) (moment : ℕ) :
    (run.state moment).settings = run.first.settings := by
  induction moment with
  | zero => rfl
  | succ moment ih => exact (run.happens moment).clock.2.2.trans ih

/-- The session has crashed. -/
def HasCrashed (run : Run) (moment : ℕ) (number : Nat) : Prop :=
  ∃ session, (run.state moment).sessions[number]? = some session ∧ session.hasCrashed = true

/-- A session gets an edit that asks for a delay. -/
def AsksDelay (run : Run) (moment : ℕ) (number : Nat) (edit : Edit) : Prop :=
  run.moves moment = .handle number (.syncEdit edit) ∧
    ∃ session, (run.state moment).AsksDelay number session edit

theorem AsksDelay.state_succ (h : run.AsksDelay moment number edit) :
    run.state (moment + 1) = (run.state moment).handle number (.syncEdit edit) := by
  rw [state, h.1, moved]

/-- A session that has crashed has just been asked for a delay, or had crashed before. -/
theorem HasCrashed.cases (h : run.HasCrashed (moment + 1) number) :
    run.HasCrashed moment number ∨
      (run.state moment).settings.sync.maxDebounceMs <
          (run.state moment).settings.sync.minDebounceMs ∧
        ∃ edit, run.AsksDelay moment number edit := by
  obtain ⟨later, hlater, hcrashed⟩ := h
  rw [state] at hlater
  by_cases hhandle : ∃ other message, run.moves moment = .handle other message
  · obtain ⟨other, message, hmove⟩ := hhandle
    rw [hmove, moved, handle, withIdle] at hlater
    split at hlater
    · rename_i session hsession
      split at hlater
      · rename_i hidle
        rcases calm_or_breaks_beginHandle hsession hidle message with
          hcalm | ⟨hcrossed, ⟨edit, rfl, hasks⟩, hothers⟩
        · exact .inl (hcalm number later hlater hcrashed)
        · by_cases hother : number = other
          · subst hother
            exact .inr ⟨hcrossed, edit, hmove, session, hasks⟩
          · rw [hothers number hother] at hlater
            exact .inl ⟨later, hlater, hcrashed⟩
      · exact .inl ⟨later, hlater, hcrashed⟩
    · exact .inl ⟨later, hlater, hcrashed⟩
  · have hcalm : (run.state moment).KeepsCalm ((run.state moment).moved (run.moves moment)) :=
      calm_moved fun other message hmove => hhandle ⟨other, message, hmove⟩
    exact .inl (hcalm number later hlater hcrashed)

/-- What these settings do to a run, which is begun with them. -/
structure FaresWith (run : Run) (sync : SyncSettings) : Prop where
  /-- A session can be opened if there is room for a message. -/
  opens : ∀ moment, (∃ next, (run.state moment).openSession? sync.outboundQueue = some next) ↔
    0 < sync.outboundQueue ∧ sync.outboundQueue ≤ Outbox.maxCapacity
  /-- A delay that is asked for ends up between the bounds, -/
  delays : sync.minDebounceMs ≤ sync.maxDebounceMs →
    ∀ {moment : ℕ} {number : Nat} {edit : Edit}, run.AsksDelay moment number edit →
      ∃ delay job pass, run.Starts moment edit delay job pass ∧
        sync.minDebounceMs ≤ delay ∧ delay ≤ sync.maxDebounceMs
  /-- and crashes the session if they are crossed. -/
  crashes : sync.maxDebounceMs < sync.minDebounceMs →
    ∀ {moment : ℕ} {number : Nat} {edit : Edit}, run.AsksDelay moment number edit →
      run.HasCrashed (moment + 1) number
  /-- Nothing else crashes a session. -/
  stays : ∀ {moment : ℕ} {number : Nat}, run.HasCrashed moment number →
    sync.maxDebounceMs < sync.minDebounceMs ∧
      ∃ earlier edit, earlier < moment ∧ run.AsksDelay earlier number edit

theorem AsksDelay.starts (h : run.AsksDelay moment number edit) {delay : Nat}
    (hdelay : (run.state moment).settings.sync.debounceDelay? edit.debounceMs = some delay) :
    ∃ job pass, run.Starts moment edit delay job pass := by
  obtain ⟨session, hasks⟩ := h.2
  obtain ⟨project, hhandle⟩ := hasks.handle_eq
  have hnext : run.state (moment + 1) =
      (run.state moment).withEdit number session project edit delay := by
    rw [h.state_succ, hhandle, acceptEdit]
    simp only [hdelay]
    rfl
  obtain ⟨job, pass, hstarts, -⟩ := starts_withEdit hdelay hnext
  exact ⟨job, pass, hstarts⟩

theorem hasCrashed_only (run : Run) {moment : ℕ} (h : run.HasCrashed moment number) :
    run.first.settings.sync.maxDebounceMs < run.first.settings.sync.minDebounceMs ∧
      ∃ earlier edit, earlier < moment ∧ run.AsksDelay earlier number edit := by
  induction moment with
  | zero =>
      obtain ⟨session, hsession, -⟩ := h
      rw [sessions_zero] at hsession
      cases hsession
  | succ moment ih =>
      rcases h.cases with hbefore | ⟨hcrossed, edit, hasks⟩
      · obtain ⟨hcrossed, earlier, edit, hlt, hasks⟩ := ih hbefore
        exact ⟨hcrossed, earlier, edit, Nat.lt_succ_of_lt hlt, hasks⟩
      · rw [run.settings_state] at hcrossed
        exact ⟨hcrossed, moment, edit, Nat.lt_succ_self moment, hasks⟩

/-- Whatever the settings are, this is all that comes of them. -/
theorem faresWith (run : Run) : run.FaresWith run.first.settings.sync where
  opens _ := exists_openSession?_iff
  delays hbounds moment number edit h := by
    obtain ⟨-, session, hasks⟩ := id h
    obtain ⟨delay, hdelay, hmin, hmax⟩ := SyncSettings.exists_debounceDelay? hbounds hasks.asks
    rw [← run.settings_state moment] at hdelay
    obtain ⟨job, pass, hstarts⟩ := h.starts hdelay
    exact ⟨delay, job, pass, hstarts, hmin, hmax⟩
  crashes hcrossed moment number edit h := by
    obtain ⟨-, session, hasks⟩ := id h
    rw [← run.settings_state moment] at hcrossed
    rw [HasCrashed, h.state_succ]
    exact hasks.crashes hcrossed
  stays := run.hasCrashed_only

end Run

/-- **What a settings file can do to the service.**  A service is started if there is room for
events, and not too much of it; a session is opened if there is room for messages.  If the
bounds of delays are not crossed no session ever crashes, and every edit that asks for a delay
gets one between them.  If they are crossed, every such edit crashes its session, and nothing
else does. -/
theorem survives {file : String} {settings : Settings}
    (h : Settings.read? file = some settings) :
    (∀ database supply, (∃ first, start? settings database supply = some first) ↔
      0 < settings.sync.eventCapacity ∧ settings.sync.eventCapacity ≤ EventBus.maxCapacity) ∧
    ∀ run : Run, Settings.read? file = some run.first.settings → run.FaresWith settings.sync := by
  refine ⟨fun database supply => exists_start?_iff, fun run hrun => ?_⟩
  obtain rfl := Option.some.inj (h.symm.trans hrun)
  exact run.faresWith

/-- A settings file whose greatest delay is less than the least one. -/
def crossedFile : String :=
  "[auth]\ndisabled = true\n\n[sync]\nmin_debounce_ms = 10\nmax_debounce_ms = 5\n"

def crossedSettings : Settings where
  auth := { disabled := true }
  sync := { minDebounceMs := 10, maxDebounceMs := 5 }

theorem read_crossedFile : Settings.read? crossedFile = some crossedSettings := by
  decide +kernel

/-- A client joins a project and sends an edit that asks for a delay. -/
def crossedRun : Run where
  first := { settings := crossedSettings, database := {}, events := { capacity := 256 } }
  isNew := ⟨crossedSettings, {}, {}, rfl⟩
  moves moment := [
    Move.openSession crossedSettings.sync.outboundQueue, .authenticate 0 none,
    .step (.session 0), .handle 0 (.subscribe 7), .step (.session 0), .step (.session 0),
    .handle 0 (.syncEdit { Run.pumpEdit "Bool" with debounceMs := some 7 })].getD moment (.wait 0)

/-- The settings are accepted, and the edit crashes its session. -/
theorem crashes_crossed : Settings.read? crossedFile = some crossedRun.first.settings ∧
    crossedRun.HasCrashed 7 0 := by
  have hcrashed : (crossedRun.state 7).sessions[0]?.map (·.hasCrashed) = some true := by
    decide +kernel
  obtain ⟨session, hsession, hcrashed⟩ := Option.map_eq_some_iff.mp hcrashed
  exact ⟨read_crossedFile, session, hsession, hcrashed⟩

theorem survives_crossed : Settings.read? crossedFile = some crossedRun.first.settings ∧
    (∃ first, start? crossedSettings {} {} = some first) ∧
    crossedRun.FaresWith crossedSettings.sync := by
  obtain ⟨hstarts, hruns⟩ := survives read_crossedFile
  exact ⟨read_crossedFile, (hstarts {} {}).mpr (by decide), hruns crossedRun read_crossedFile⟩

end Service

end PlcTags
