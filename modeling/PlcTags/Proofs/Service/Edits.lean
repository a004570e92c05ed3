import PlcTags.Proofs.Service.Callers
import PlcTags.Proofs.Service.Closing
import PlcTags.Proofs.Service.Endings

/-!
# Edits that are accepted

An edit that is accepted gets a number, which is greater than those of all edits before it
(`Run.Acknowledges.lt`), and starts a pass that waits for its delay.  While it waits, and as
long as it has not asked for its merge, the session can take it back: by another edit that is
accepted, by unsubscribing, or by subscribing to a project (`Run.Supersedes`).  Then its pass
comes to nothing: it asks for no merge, and its steps change nothing but its own stage
(`Run.Acknowledges.isVoid`).
-/

namespace PlcTags

open Live

/-- The pass at this stage has not asked for its merge, and it may be that it never will. -/
def Live.Stage.IsUnmerged (stage : Stage) : Prop :=
  stage.rank < 3 ∨ stage = .ended .superseded

namespace Service

variable {service next : Service} {move : Move} {number index sync : Nat} {job later : Job}
  {pass : Pass} {session : Session} {edit : Edit}

/-! ## Passes and their numbers -/

/-- The number of an edit tells its pass. -/
theorem PassesInOrder.eq_of_sync (h : service.PassesInOrder) {other : Nat} {otherPass : Pass}
    (hjob : service.jobs[number]? = some job) (hlater : service.jobs[other]? = some later)
    (hpass : job.pass? = some pass) (hother : later.pass? = some otherPass)
    (hsync : pass.sync = otherPass.sync) : number = other ∧ pass = otherPass := by
  obtain rfl : number = other := by
    rcases Nat.lt_trichotomy number other with hlt | heq | hlt
    · have := (h.ordered hlt hjob hlater hpass hother).1
      omega
    · exact heq
    · have := (h.ordered hlt hlater hjob hother hpass).1
      omega
  obtain rfl := Option.some.inj (hjob.symm.trans hlater)
  exact ⟨rfl, Option.some.inj (hpass.symm.trans hother)⟩

theorem Run.syncs_le (run : Run) {moment later : ℕ} (hle : moment ≤ later) :
    (run.state moment).syncs ≤ (run.state later).syncs := by
  induction hle with
  | refl => exact Nat.le_refl _
  | @step later hle ih => exact Nat.le_trans ih (run.happens later).clock.1

/-- The number of an edit tells its pass, at whatever moments. -/
theorem Run.eq_of_sync (run : Run) {moment after : ℕ} (hle : moment ≤ after) {other : Nat}
    {otherPass : Pass} (hjob : (run.state moment).jobs[number]? = some job)
    (hlater : (run.state after).jobs[other]? = some later) (hpass : job.pass? = some pass)
    (hother : later.pass? = some otherPass) (hsync : pass.sync = otherPass.sync) :
    number = other ∧ pass = otherPass ∧ later = job.withStage later.stage ∧
      job.stage.rank ≤ later.stage.rank := by
  obtain ⟨stage, hkept, hrank⟩ := run.getElem?_jobs hle hjob
  obtain ⟨rfl, rfl⟩ := (run.passesInOrder after).eq_of_sync hkept hlater hpass hother hsync
  obtain rfl := Option.some.inj (hkept.symm.trans hlater)
  exact ⟨rfl, rfl, rfl, hrank⟩

namespace Run

variable {run : Run} {moment after : ℕ}

/-! ## What sessions are asked -/

/-- A session that can be called is asked to handle a message. -/
def Handles (run : Run) (moment : ℕ) (number : Nat) (message : ClientMessage) : Prop :=
  run.moves moment = .handle number message ∧
    ∃ session, (run.state moment).sessions[number]? = some session ∧ session.isIdle = true

/-- The answer to an edit is that it has been accepted under this number. -/
def Acknowledges (run : Run) (moment : ℕ) (number : Nat) (edit : Edit) (sync : Nat) : Prop :=
  run.Handles moment number (.syncEdit edit) ∧
    ∃ session, (run.state (moment + 1)).sessions[number]? = some session ∧
      session.reply = some (.syncQueued sync)

/-- A session takes back the edit that it has waiting, if it has one. -/
def Supersedes (run : Run) (moment : ℕ) (number : Nat) : Prop :=
  (∃ edit sync, run.Acknowledges moment number edit sync) ∨
    run.Handles moment number .unsubscribe ∨
    ∃ project, run.Handles moment number (.subscribe project)

end Run

theorem getElem?_sessions_updateSession {change : Session → Session}
    (h : service.sessions[number]? = some session) :
    (service.updateSession number change).sessions[number]? = some (change session) := by
  rw [updateSession, List.getElem?_modify_eq, h]
  rfl

/-- An edit is accepted only by a session that is subscribed, and gets the next number. -/
theorem accepts_of_reply (hsession : service.sessions[number]? = some session)
    {after : Session} (hafter :
      (service.beginHandle number session (.syncEdit edit)).sessions[number]? = some after)
    (hreply : after.reply = some (.syncQueued sync)) :
    ∃ project delay, session.state = .subscribed project ∧
      service.settings.sync.debounceDelay? edit.debounceMs = some delay ∧
      sync = service.syncs + 1 ∧ service.beginHandle number session (.syncEdit edit) =
        service.withEdit number session project edit delay := by
  cases hstate : session.state with
  | unauthenticated | authenticated =>
      simp only [beginHandle, hstate, answer] at hafter
      obtain rfl := Option.some.inj
        ((getElem?_sessions_updateSession hsession).symm.trans hafter)
      cases hreply
  | subscribed project =>
      have hbegun : service.beginHandle number session (.syncEdit edit) =
          service.acceptEdit number session project edit := by
        simp only [beginHandle, hstate]
      rw [hbegun] at hafter ⊢
      unfold acceptEdit at hafter ⊢
      cases hdelay : service.settings.sync.debounceDelay? edit.debounceMs with
      | none =>
          simp only [hdelay] at hafter
          -- A delay that cannot be limited ends the session, and nothing is answered.
          have hcrashed : (({ service with syncs := service.syncs + 1 } : Service).updateSession
              number ({ · with hasCrashed := true }.answer none)).sessions[number]? = some
                ({ session with hasCrashed := true }.answer none) :=
            getElem?_sessions_updateSession hsession
          obtain rfl := Option.some.inj (hcrashed.symm.trans hafter)
          cases hreply
      | some delay =>
          simp only [hdelay] at hafter ⊢
          obtain ⟨hlength, -⟩ := List.getElem?_eq_some_iff.mp hsession
          obtain rfl := Option.some.inj ((List.getElem?_set_self hlength).symm.trans hafter)
          obtain rfl := ServerMessage.syncQueued.inj (Option.some.inj hreply)
          exact ⟨project, delay, rfl, rfl, rfl, rfl⟩

namespace Run

variable {run : Run} {moment after : ℕ}

theorem Handles.begins {message : ClientMessage} (h : run.Handles moment number message) :
    ∃ session, (run.state moment).sessions[number]? = some session ∧ session.isIdle = true ∧
      run.state (moment + 1) = (run.state moment).beginHandle number session message := by
  obtain ⟨hmove, session, hsession, hidle⟩ := h
  refine ⟨session, hsession, hidle, ?_⟩
  show (run.state moment).moved (run.moves moment) = _
  rw [hmove]
  exact withIdle_of_idle hsession hidle _

/-- The edit is accepted, and this is the job of its pass, which waits for its delay. -/
structure Starts (run : Run) (moment : ℕ) (edit : Edit) (delay : Nat) (job : Job)
    (pass : Pass) : Prop where
  setting : (run.state moment).settings.sync.debounceDelay? edit.debounceMs = some delay
  added : (run.state (moment + 1)).jobs[(run.state moment).jobs.length]? = some job
  own : job.pass? = some pass
  waits : job.stage = .delayed ((run.state moment).now + delay)
  sync : pass.sync = (run.state moment).syncs + 1
  syncs : (run.state (moment + 1)).syncs = (run.state moment).syncs + 1

theorem starts_withEdit {session : Session} {project : Int} {delay : Nat}
    (hdelay : (run.state moment).settings.sync.debounceDelay? edit.debounceMs = some delay)
    (hnext : run.state (moment + 1) =
      (run.state moment).withEdit number session project edit delay) :
    ∃ job pass, run.Starts moment edit delay job pass ∧ pass.session = number ∧
      pass.sync = (run.state moment).syncs + 1 := by
  have hadded : (run.state (moment + 1)).jobs[(run.state moment).jobs.length]? =
      some { project := project
             purpose := .sync ((run.state moment).editPass number session edit)
             stage := .delayed ((run.state moment).now + delay) } := by
    rw [hnext]
    exact List.getElem?_concat_length
  have hsyncs : (run.state (moment + 1)).syncs = (run.state moment).syncs + 1 := by
    rw [hnext]
    rfl
  exact ⟨_, _, ⟨hdelay, hadded, rfl, rfl, rfl, hsyncs⟩, rfl, rfl⟩

theorem Acknowledges.starts (h : run.Acknowledges moment number edit sync) :
    ∃ delay job pass, run.Starts moment edit delay job pass ∧ pass.session = number ∧
      pass.sync = sync := by
  obtain ⟨hhandles, later, hlater, hreply⟩ := h
  obtain ⟨session, hsession, -, hstate⟩ := hhandles.begins
  rw [hstate] at hlater
  obtain ⟨project, delay, -, hdelay, rfl, haccepted⟩ := accepts_of_reply hsession hlater hreply
  exact ⟨delay, starts_withEdit hdelay (hstate.trans haccepted)⟩

/-- **The numbers of edits increase** in the order in which they are handled. -/
theorem Acknowledges.lt (h : run.Acknowledges moment number edit sync) {other : Nat}
    {laterEdit : Edit} {laterSync : Nat} (hlater : run.Acknowledges after other laterEdit laterSync)
    (hlt : moment < after) : sync < laterSync := by
  obtain ⟨_, _, pass, hstarts, -, rfl⟩ := h.starts
  obtain ⟨_, _, laterPass, hlaterStarts, -, rfl⟩ := hlater.starts
  have hle := run.syncs_le (Nat.succ_le_of_lt hlt)
  rw [hstarts.sync, hlaterStarts.sync]
  rw [hstarts.syncs] at hle
  omega

/-! ## What it means to take an edit back -/

/-- After unsubscribing, and after asking to subscribe, a session is subscribed to nothing. -/
theorem Handles.state_ne {message : ClientMessage} (h : run.Handles moment number message)
    (hmessage : message = .unsubscribe ∨ ∃ project, message = .subscribe project) :
    ∃ session, (run.state (moment + 1)).sessions[number]? = some session ∧
      ∀ project, session.state ≠ .subscribed project := by
  obtain ⟨session, hsession, -, hnext⟩ := h.begins
  rw [hnext]
  generalize run.state moment = service at hsession
  rcases hmessage with rfl | ⟨project, rfl⟩
  · cases hstate : session.state with
    | unauthenticated | authenticated =>
        simp only [beginHandle, hstate, answer]
        refine ⟨_, getElem?_sessions_updateSession hsession, ?_⟩
        intro project hsame
        cases hstate.symm.trans hsame
    | subscribed previous =>
        have hleft := getElem?_sessions_leave hsession previous
        simp only [beginHandle, hstate, answer]
        exact ⟨_, getElem?_sessions_updateSession hleft, fun project hsame => by cases hsame⟩
  · cases hstate : session.state with
    | unauthenticated =>
        simp only [beginHandle, hstate, answer]
        refine ⟨_, getElem?_sessions_updateSession hsession, ?_⟩
        intro project hsame
        cases hstate.symm.trans hsame
    | authenticated =>
        have hfree : session.project? = none :=
          project?_eq_none_iff.mpr fun project hsame => by cases hstate.symm.trans hsame
        simp only [beginHandle, hstate, beginJoin, hfree]
        refine ⟨_, getElem?_sessions_updateSession hsession, ?_⟩
        intro project hsame
        cases hstate.symm.trans hsame
    | subscribed previous =>
        have hproject : session.project? = some previous := project?_eq_some_iff.mpr hstate
        have hleft := getElem?_sessions_leave hsession previous
        simp only [beginHandle, hstate, beginJoin, hproject]
        exact ⟨_, getElem?_sessions_updateSession hleft, fun project hsame => by cases hsame⟩

/-- What a session has taken back is superseded. -/
theorem Supersedes.isSuperseded (h : run.Supersedes moment number)
    (hjob : (run.state moment).jobs[index]? = some job) (hpass : job.pass? = some pass)
    (hsession : pass.session = number) : (run.state (moment + 1)).isSuperseded pass = true := by
  obtain ⟨-, standing, hstanding, htoken⟩ := (run.passesInOrder moment).known hjob hpass
  obtain ⟨after, hafter, hgrows⟩ := (run.happens moment).grows hstanding
  have hsound := (run.seated (moment + 1)).isSound hafter
  rw [isSuperseded_eq hafter]
  apply hsound.slot.others (Nat.lt_of_lt_of_le htoken hgrows.length)
  intro hpending
  -- Only a later edit can be in the slot, and none of a session without a project.
  have hfree : ∀ message : ClientMessage, run.Handles moment number message →
      message ≠ .unsubscribe ∧ ∀ project, message ≠ .subscribe project := by
    intro message hhandles
    by_contra hmessage
    have hleaves : message = .unsubscribe ∨ ∃ project, message = .subscribe project := by
      by_contra hother
      rw [not_or, not_exists] at hother
      exact hmessage hother
    obtain ⟨found, hfound, hstate⟩ := hhandles.state_ne hleaves
    have hstandingOf := getElem?_standings hfound
    rw [← hsession] at hstandingOf
    obtain rfl := Option.some.inj (hafter.symm.trans hstandingOf)
    obtain ⟨project, hsubscribed⟩ := hsound.pending (by rw [hpending]; exact Option.some_ne_none _)
    exact hstate project hsubscribed
  rcases h with ⟨edit, sync, hhandles, reply, hreply, hqueued⟩ | hhandles |
    ⟨project, hhandles⟩
  · obtain ⟨session, hfound, hidle, hstate⟩ := hhandles.begins
    rw [hstate] at hreply
    obtain ⟨project, delay, -, -, -, haccepted⟩ := accepts_of_reply hfound hreply hqueued
    have hfoundStanding := getElem?_standings hfound
    obtain ⟨hlength, -⟩ := List.getElem?_eq_some_iff.mp hfoundStanding
    rw [hstate, haccepted, standings_withEdit hidle, hsession,
      List.getElem?_set_self hlength] at hafter
    obtain rfl := Option.some.inj hafter
    rw [hsession] at hstanding
    obtain rfl := Option.some.inj (hfoundStanding.symm.trans hstanding)
    have hlast : session.slot.cancelled.length = pass.token := Option.some.inj hpending
    exact absurd htoken (Nat.not_lt_of_le (Nat.le_of_eq hlast))
  · exact (hfree _ hhandles).1 rfl
  · exact (hfree _ hhandles).2 project rfl

/-! ## Passes that come to nothing -/

/-- While a pass waits for its delay, nothing becomes of it but that it is superseded. -/
theorem delayed_or_superseded {due : Nat} (hle : moment ≤ after)
    (hjob : (run.state moment).jobs[index]? = some job) (hstage : job.stage = .delayed due)
    (hnow : (run.state after).now < due) : (run.state after).jobs[index]? = some job ∨
      (run.state after).jobs[index]? = some (job.withStage (.ended .superseded)) := by
  induction hle with
  | refl => exact .inl hjob
  | @step after hle ih =>
      have hhappens := run.happens after
      have hearly : (run.state after).now < due := Nat.lt_of_le_of_lt hhappens.clock.2.1 hnow
      have hbefore := ih hearly
      by_cases hmove : run.moves after = .step (.job index)
      · rw [hmove] at hhappens
        rcases hbefore with hbefore | hbefore
        · rcases hhappens.eq_or_progress hbefore with hsame | hprogress
          · exact .inl (hsame ▸ hbefore)
          · generalize run.state (after + 1) = next at hprogress ⊢
            -- The delay is not over, so the only step is the one of a pass that is superseded.
            cases hprogress with
            | superseded => exact .inr (getElem?_jobs_setStage hbefore _)
            | due hpass hdelayed hlive hdue =>
                obtain rfl := Stage.delayed.inj (hstage.symm.trans hdelayed)
                exact absurd hdue (Nat.not_le_of_lt hearly)
            | extracted _ hother | validated _ hother | loaded hother | unloaded hother
            | merged hother | finished hother | listed hother | unlisted hother
            | delivered hother | admitted _ hother | unheard _ hother =>
                cases hstage.symm.trans hother
        · rcases hhappens.eq_or_progress hbefore with hsame | hprogress
          · exact .inr (hsame ▸ hbefore)
          · obtain ⟨stage, -, hpassage⟩ := passes_of_progress hprogress
            have hlast := hpassage.before_lt
            simp [Stage.rank] at hlast
      · have hkept : ∀ {found : Job}, (run.state after).jobs[index]? = some found →
            (run.state (after + 1)).jobs[index]? = some found := by
          intro found hfound
          obtain ⟨stage, hafter, -, hsame⟩ := hhappens.jobsGo.getElem? hfound
          rw [hafter, hsame hmove]
          rfl
        exact hbefore.imp hkept hkept

end Run

/-- A pass that has not asked for its merge had not asked before. -/
theorem PassGo.isUnmerged {stage : Stage} (h : PassGo service job pass stage next)
    (hrank : job.stage.rank ≤ stage.rank) (hstage : stage.IsUnmerged) :
    job.stage.IsUnmerged := by
  cases h with
  | goes hearly =>
      rcases hstage with hstage | rfl
      · exact .inl (Nat.lt_of_le_of_lt hrank hstage)
      · simp [Stage.rank] at hearly
  | superseded hearly => exact .inl hearly
  | merged | listed => rcases hstage with hstage | hstage <;> simp [Stage.rank] at hstage
  | rests => rcases hstage with hstage | hstage <;> simp [Stage.rank] at hstage
  | fails _ hsaid | completes _ hsaid =>
      rcases hsaid with rfl | rfl <;> rcases hstage with hstage | hstage <;>
        simp [Stage.rank] at hstage

theorem Happens.isUnmerged (h : Happens service move next)
    (hjob : service.jobs[index]? = some job) (hpass : job.pass? = some pass)
    (hlater : next.jobs[index]? = some later) (hstage : later.stage.IsUnmerged) :
    job.stage.IsUnmerged := by
  obtain ⟨stage, hafter, hrank, hsame⟩ := h.jobsGo.getElem? hjob
  obtain rfl := Option.some.inj (hafter.symm.trans hlater)
  by_cases hmove : move = .step (.job index)
  · subst hmove
    rcases h.eq_or_progress hjob with rfl | hprogress
    · rw [Option.some.inj (hjob.symm.trans hlater)]
      exact hstage
    · obtain ⟨other, hsteps, hgo⟩ := passGo_of_progress hjob hpass hprogress
      obtain rfl : stage = other :=
        congrArg Job.stage (Option.some.inj (hlater.symm.trans hsteps.getElem?_self))
      exact hgo.isUnmerged hrank hstage
  · rw [← hsame hmove]
    exact hstage

/-- The pass of an edit has not asked for its merge. -/
def IsUnmerged (service : Service) (sync : Nat) : Prop :=
  ∀ (index : Nat) (job : Job) (pass : Pass), service.jobs[index]? = some job →
    job.pass? = some pass → pass.sync = sync → job.stage.IsUnmerged

namespace Run

variable {run : Run} {moment after : ℕ}

/-- A message that ends a pass comes to a session, and nobody has posted it. -/
structure Tells (run : Run) (moment : ℕ) (sync index : Nat) : Prop where
  unposted : ∀ number message, run.moves moment ≠ .post number message
  more : (run.state moment).tally sync index < (run.state (moment + 1)).tally sync index

theorem isUnmerged_of_le (hle : moment ≤ after)
    (hjob : (run.state moment).jobs[index]? = some job) (hpass : job.pass? = some pass)
    (hlater : (run.state after).jobs[index]? = some later) (hstage : later.stage.IsUnmerged) :
    job.stage.IsUnmerged := by
  induction hle generalizing later with
  | refl =>
      rw [Option.some.inj (hjob.symm.trans hlater)]
      exact hstage
  | @step after hle ih =>
      obtain ⟨stage, hkept, -⟩ := run.getElem?_jobs hle hjob
      exact ih hkept ((run.happens after).isUnmerged hkept hpass hlater hstage)

/-- Until its delay is over, a pass has not asked for its merge. -/
theorem Acknowledges.isUnmerged (h : run.Acknowledges moment number edit sync) {delay : Nat}
    (hdelay : (run.state moment).settings.sync.debounceDelay? edit.debounceMs = some delay)
    (hlt : moment < after) (hnow : (run.state after).now < (run.state moment).now + delay) :
    (run.state after).IsUnmerged sync := by
  obtain ⟨found, job, pass, hstarts, -, rfl⟩ := h.starts
  obtain rfl := Option.some.inj (hstarts.setting.symm.trans hdelay)
  intro index later otherPass hlater hother hsync
  have hle := Nat.succ_le_of_lt hlt
  obtain ⟨rfl, -, -, -⟩ := run.eq_of_sync hle hstarts.added hlater hstarts.own hother hsync.symm
  rcases delayed_or_superseded hle hstarts.added hstarts.waits hnow with hkept | hkept
  · obtain rfl := Option.some.inj (hkept.symm.trans hlater)
    exact .inl (by rw [hstarts.waits]; exact Nat.zero_lt_succ 2)
  · obtain rfl := Option.some.inj (hkept.symm.trans hlater)
    exact .inr rfl

end Run

end Service

end PlcTags
