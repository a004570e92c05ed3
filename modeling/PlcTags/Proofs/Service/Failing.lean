import PlcTags.Proofs.Service.Closing
import PlcTags.Proofs.Service.Endings

/-!
# Requests that fail

A container that is malformed anywhere is refused before anything is done with it.  A job
whose project cannot be read when its turn has come is over: before that it has only waited,
and afterwards it only has to say that it failed, if it is the pass of an edit.  So none of
its moves, from the one that begins it to the last, leaves a trace anywhere but in the
session of its edit (`Run.leavesAlone_of_isUnreadable`).
-/

namespace PlcTags

open Live

/-- The session of this number is not the one that the job has something to say to. -/
def Live.Job.IsApart (job : Job) (number : Nat) : Prop :=
  ∀ pass, job.pass? = some pass → pass.session ≠ number

namespace Service

variable {service middle next before after : Service} {number index : Nat} {job later : Job}
  {pass : Pass} {failure : Failure} {text : String} {move : Move}

/-! ## What leaves others alone -/

/-- Nothing has been stored, nobody has joined or left a project, no event has been emitted,
and these sessions are as they were, with all that they have been told. -/
structure LeavesAlone (next : Service) (spared : Nat → Prop) (service : Service) : Prop where
  database : next.database = service.database
  registry : next.registry = service.registry
  events : next.events = service.events
  sessions : ∀ index, spared index → next.sessions[index]? = service.sessions[index]?

theorem LeavesAlone.refl (service : Service) (spared : Nat → Prop) :
    service.LeavesAlone spared service :=
  ⟨rfl, rfl, rfl, fun _ _ => rfl⟩

theorem leavesAlone_failMerge (service : Service) (number : Nat) (job : Job)
    (failure : Failure) :
    (service.failMerge number job failure).LeavesAlone job.IsApart service := by
  unfold failMerge
  split
  · rename_i pass hpurpose
    refine ⟨rfl, rfl, rfl, fun index hapart => ?_⟩
    exact List.getElem?_modify_ne _ _ (hapart pass (Job.pass?_eq_some_iff.mpr hpurpose))
  all_goals exact ⟨rfl, rfl, rfl, fun _ _ => rfl⟩

/-- A job that does not get to merge, and does not announce, leaves others alone. -/
theorem Progress.leavesAlone (h : Progress service number job next)
    (hrank : job.stage.rank ≤ 3 ∨ 7 ≤ job.stage.rank) :
    next.LeavesAlone job.IsApart service := by
  cases h with
  | merged hstage | finished hstage | listed hstage | unlisted hstage | delivered hstage =>
      rw [hstage] at hrank
      simp [Stage.rank] at hrank
  | @unloaded origin batch diagnostics failure hstage =>
      obtain ⟨hdatabase, hregistry, hevents, hsessions⟩ := leavesAlone_failMerge
        { service with merges := service.merges.release job.project (.job number) } number job
          failure
      exact ⟨hdatabase, hregistry, hevents, hsessions⟩
  | @admitted pass session outbox hpass hstage hsession houtbox =>
      refine ⟨rfl, rfl, rfl, fun index hapart => ?_⟩
      exact List.getElem?_set_ne (hapart pass hpass)
  | _ => exact ⟨rfl, rfl, rfl, fun _ _ => rfl⟩

/-- So does the move that begins a job, which is not over then. -/
theorem Happens.leavesAlone_of_new (h : Happens service move next)
    (hjobs : next.jobs = service.jobs ++ [later]) :
    next.LeavesAlone later.IsApart service ∧ later.stage.rank < 7 := by
  have hsame : next.jobs ≠ service.jobs := by
    rw [hjobs]
    simp
  cases h with
  | nothing => exact absurd rfl hsame
  | @progress number job next hjob hstep hprogress =>
      obtain ⟨stage, hset, -⟩ := jobs_of_passes (passes_of_progress hprogress) hjob
      have hlength := congrArg List.length (hset.symm.trans hjobs)
      simp at hlength
  | conduct hmove hconducts hend htasks => exact absurd htasks.jobs hsame
  | crash hmove hconducts htasks => exact absurd htasks.jobs hsame
  | @edit number session project edit delay hsession hidle hstate hdelay =>
      obtain rfl : _ = later := List.singleton_inj.mp (List.append_cancel_left hjobs)
      refine ⟨⟨rfl, rfl, rfl, fun index hapart => ?_⟩, Nat.zero_lt_succ 6⟩
      exact List.getElem?_set_ne (hapart _ rfl)
  | opened hmove hstandings hregistry hannouncements htasks => exact absurd htasks.jobs hsame
  | messages hmove hseats hannouncements htasks => exact absurd htasks.jobs hsame
  | merge hmove hpurpose =>
      obtain rfl : _ = later := List.singleton_inj.mp (List.append_cancel_left hjobs)
      exact ⟨⟨rfl, rfl, rfl, fun _ _ => rfl⟩, by simp [Stage.rank]⟩
  | announcement project =>
      obtain rfl : _ = later := List.singleton_inj.mp (List.append_cancel_left hjobs)
      exact ⟨⟨rfl, rfl, rfl, fun _ _ => rfl⟩, by simp [Stage.rank]⟩
  | wait duration => exact absurd rfl hsame
  | access database => exact absurd rfl hsame

/-! ## Projects that cannot be read -/

/-- The turn of a job has come, and its project cannot be read. -/
structure IsUnreadable (service : Service) (number : Nat) (job : Job) (failure : Failure) :
    Prop where
  found : service.jobs[number]? = some job
  queued : ∃ origin batch diagnostics, job.stage = .queued origin batch diagnostics
  turn : service.merges.isHeldBy job.project (.job number) = true
  fails : service.database.list job.project = .error failure

theorem queued_of_rank {stage : Stage} (h : stage.rank = 3) :
    ∃ origin batch diagnostics, stage = .queued origin batch diagnostics := by
  cases stage with
  | queued origin batch diagnostics => exact ⟨origin, batch, diagnostics, rfl⟩
  | _ => simp [Stage.rank] at h

/-- Then the job fails. -/
theorem IsUnreadable.jobStep?_eq (h : service.IsUnreadable number job failure) :
    service.jobStep? number = some ({ service with
      merges := service.merges.release job.project (.job number) }.failMerge number job
        failure) := by
  obtain ⟨origin, batch, diagnostics, hstage⟩ := h.queued
  unfold jobStep?
  rw [h.found, Option.bind_eq_bind, Option.bind_some, hstage]
  simp only [h.turn, if_true, loadForMerge, h.fails]
  rfl

/-- A job that has failed is over. -/
theorem IsUnreadable.rank_le (h : service.IsUnreadable number job failure)
    (hstep : service.jobStep? number = some next) :
    ∃ stage : Stage, next.jobs[number]? = some (job.withStage stage) ∧ 7 ≤ stage.rank := by
  obtain rfl := Option.some.inj (h.jobStep?_eq.symm.trans hstep)
  obtain ⟨stage, hrank, hjobs, -⟩ := leads_failMerge
    { service with merges := service.merges.release job.project (.job number) } number job failure
  exact ⟨stage, by rw [hjobs]; exact getElem?_jobs_setStage h.found stage, hrank⟩

theorem isSaid_of_tell {message : ServerMessage}
    (h : (service.tell number pass message).jobs[number]? = some later) : later.stage.IsSaid := by
  obtain ⟨stage, hsaid, hjobs⟩ := service.leads_isSaid_tell number pass message
  rw [hjobs] at h
  rwa [stage_of_setStage h]

theorem ne_imported_of_isSaid {stage : Stage} (h : stage.IsSaid)
    {result : Except Failure ImportSummary} : stage ≠ .ended (.imported result) := by
  rcases h with rfl | rfl <;> exact nofun

/-- An import that gets to its announcement does not fail. -/
theorem stage_endAnnouncement_ne {report : Option MergeReport} {diagnostics : List Diagnostic}
    {result : Except Failure Nat}
    (h : (service.endAnnouncement number job report diagnostics result).jobs[number]? =
      some later) : later.stage ≠ .ended (.imported (.error failure)) := by
  unfold endAnnouncement at h
  dsimp only at h
  split at h
  · exact ne_imported_of_isSaid (isSaid_of_tell h)
  all_goals
    rw [stage_of_setStage h]
    exact nofun

/-- Only an import that cannot read its project ends with a failure. -/
theorem isUnreadable_of_imported (hjob : service.jobs[number]? = some job)
    (h : Progress service number job next) (hlater : next.jobs[number]? = some later)
    (hended : later.stage = .ended (.imported (.error failure))) :
    service.IsUnreadable number job failure ∧ job.pass? = none := by
  cases h with
  | superseded | due | extracted | validated | loaded | merged | listed | admitted | unheard =>
      cases (stage_of_setStage hlater).symm.trans hended
  | @unloaded origin batch diagnostics found hstage hturn hfails =>
      unfold failMerge at hlater
      split at hlater
      · exact absurd hended (ne_imported_of_isSaid (isSaid_of_tell hlater))
      · rename_i vendor hpurpose
        cases (stage_of_setStage hlater).symm.trans hended
        refine ⟨⟨hjob, ⟨origin, batch, diagnostics, hstage⟩, hturn, hfails⟩, ?_⟩
        rw [Job.pass?, hpurpose]
      all_goals cases (stage_of_setStage hlater).symm.trans hended
  | finished =>
      unfold endMerge at hlater
      dsimp only at hlater
      split at hlater <;> cases (stage_of_setStage hlater).symm.trans hended
  | unlisted | delivered => exact absurd hended (stage_endAnnouncement_ne hlater)

/-! ## Who says that it failed -/

/-- The end of an announcement is no failure. -/
theorem untold_endAnnouncement {report : Option MergeReport} {diagnostics : List Diagnostic}
    (huntold : Untold (.error text) service middle) (result : Except Failure Nat) :
    Untold (.error text) service
      (middle.endAnnouncement number job report diagnostics result) := by
  unfold endAnnouncement
  dsimp only
  split
  · refine (huntold.trans (untold_of_sessions ?_)).trans (untold_tell _ number _ nofun)
    rfl
  all_goals exact huntold.trans (untold_of_sessions rfl)

theorem untold_setSession {message : ServerMessage} {session changed : Session}
    (hsession : service.sessions[index]? = some session)
    (hcount : changed.outbox.messages.count message = session.outbox.messages.count message) :
    Untold message service (service.setSession index changed) := by
  intro other old hold
  by_cases hother : index = other
  · subst hother
    obtain rfl := Option.some.inj (hsession.symm.trans hold)
    have hlength := (List.getElem?_eq_some_iff.mp hsession).1
    exact ⟨changed, List.getElem?_set_self hlength, hcount⟩
  · exact ⟨old, (List.getElem?_set_ne hother).trans hold, rfl⟩

theorem untold_or_isUnreadable (hjob : service.jobs[number]? = some job)
    (h : Progress service number job next) :
    Untold (.error text) service next ∨ ∃ failure, service.IsUnreadable number job failure := by
  cases h with
  | superseded | due | extracted | validated | loaded | merged | listed | unheard =>
      exact .inl (untold_of_sessions rfl)
  | @unloaded origin batch diagnostics failure hstage hturn hfails =>
      exact .inr ⟨failure, hjob, ⟨origin, batch, diagnostics, hstage⟩, hturn, hfails⟩
  | finished =>
      unfold endMerge
      dsimp only
      split <;> exact .inl (untold_of_sessions rfl)
  | unlisted => exact .inl (untold_endAnnouncement (untold_of_sessions rfl) _)
  | @delivered report diagnostics tags hstage =>
      have hdelivered : Untold (.error text) service
          (service.deliver job.project (.tagsUpdated job.project tags)) :=
        service.untold_deliver job.project nofun
      exact .inl (untold_endAnnouncement hdelivered _)
  | admitted hpass hstage hsession houtbox =>
      left
      exact untold_setSession hsession (congrArg _ (Outbox.messages_admit? houtbox))

/-- A job tells of a failure only if it cannot read its project. -/
theorem isUnreadable_of_tells (h : before.Tells number (.error text) after) :
    ∃ job failure, before.IsUnreadable number job failure := by
  obtain ⟨hstep, index, session, later, hsession, hlater, hmore⟩ := h
  obtain ⟨job, hjob, hprogress⟩ := progress_of_jobStep? hstep
  rcases untold_or_isUnreadable hjob hprogress with huntold | hunreadable
  · obtain ⟨same, hsame, hcount⟩ := huntold index session hsession
    obtain rfl := Option.some.inj (hlater.symm.trans hsame)
    exact absurd hmore (hcount ▸ Nat.lt_irrefl _)
  · exact ⟨job, hunreadable⟩

/-! ## Runs -/

namespace Run

variable {run : Run} {moment : ℕ}

/-- The move of this moment is the one that begins a job, or a step of it. -/
def ActsFor (run : Run) (moment : ℕ) (number : Nat) : Prop :=
  run.moves moment = .step (.job number) ∨
    (run.state moment).jobs[number]? = none ∧
      ∃ job, (run.state (moment + 1)).jobs[number]? = some job

/-- A job is for the same pass at all moments. -/
theorem pass?_eq (run : Run) {first second : ℕ} (hjob : (run.state first).jobs[number]? = some job)
    (hlater : (run.state second).jobs[number]? = some later) : later.pass? = job.pass? := by
  rcases Nat.le_total first second with hle | hle
  · obtain ⟨stage, hkept, -⟩ := run.getElem?_jobs hle hjob
    obtain rfl := Option.some.inj (hkept.symm.trans hlater)
    rfl
  · obtain ⟨stage, hkept, -⟩ := run.getElem?_jobs hle hlater
    obtain rfl := Option.some.inj (hkept.symm.trans hjob)
    rfl

theorem state_succ_of_step (hmove : run.moves moment = .step (.job number)) :
    run.state (moment + 1) = ((run.state moment).jobStep? number).getD (run.state moment) := by
  show (run.state moment).moved (run.moves moment) = _
  rw [hmove]
  rfl

/-- How far a job is that fails at a moment. -/
theorem rank_of_isUnreadable (hmove : run.moves moment = .step (.job number))
    (h : (run.state moment).IsUnreadable number job failure) {other : ℕ}
    (hlater : (run.state other).jobs[number]? = some later) :
    later.stage.rank ≤ 3 ∨ 7 ≤ later.stage.rank := by
  rcases Nat.lt_or_ge moment other with hlt | hle
  · have hstate : run.state (moment + 1) = _ := state_succ_of_step hmove
    rw [h.jobStep?_eq, Option.getD_some] at hstate
    obtain ⟨stage, hover, hrank⟩ := h.rank_le (hstate ▸ h.jobStep?_eq)
    obtain ⟨last, hlast, hle⟩ := run.getElem?_jobs hlt hover
    obtain rfl := Option.some.inj (hlast.symm.trans hlater)
    exact .inr (Nat.le_trans hrank hle)
  · obtain ⟨stage, hkept, hrank⟩ := run.getElem?_jobs hle hlater
    obtain rfl := Option.some.inj (hkept.symm.trans h.found)
    obtain ⟨origin, batch, diagnostics, hstage⟩ := h.queued
    rw [Job.stage_withStage] at hstage
    rw [hstage] at hrank
    exact .inl hrank

/-- **A job that cannot read its project leaves others alone**, with the move that begins it and
with all its steps, before it fails and after. -/
theorem leavesAlone_of_isUnreadable (hmove : run.moves moment = .step (.job number))
    (h : (run.state moment).IsUnreadable number job failure) {other : ℕ}
    (hacts : run.ActsFor other number) :
    (run.state (other + 1)).LeavesAlone job.IsApart (run.state other) := by
  have hapart : ∀ {later : Job} {time : ℕ}, (run.state time).jobs[number]? = some later →
      later.IsApart = job.IsApart := by
    intro later time hlater
    unfold Job.IsApart
    rw [run.pass?_eq h.found hlater]
  rcases hacts with hstep | ⟨hnone, later, hlater⟩
  · cases hfound : (run.state other).jobs[number]? with
    | none =>
        rw [state_succ_of_step hstep, jobStep?, hfound]
        exact .refl _ _
    | some found =>
        have hhappens := run.happens other
        rw [hstep] at hhappens
        rcases hhappens.eq_or_progress hfound with hsame | hprogress
        · rw [hsame]
          exact .refl _ _
        · rw [← hapart hfound]
          exact hprogress.leavesAlone (rank_of_isUnreadable hmove h hfound)
  · have hhappens := run.happens other
    rcases hhappens.jobsGo.of_getElem? hlater with ⟨before, hbefore, -⟩ | ⟨-, hjobs⟩
    · cases hnone.symm.trans hbefore
    · rw [← hapart hlater]
      exact (hhappens.leavesAlone_of_new hjobs).1

/-- An import that has ended with a failure could not read its project before. -/
theorem exists_isUnreadable (run : Run) (moment : ℕ)
    (hjob : (run.state moment).jobs[number]? = some job)
    (hended : job.stage = .ended (.imported (.error failure))) :
    ∃ earlier < moment, run.moves earlier = .step (.job number) ∧ ∃ before : Job,
      (run.state earlier).IsUnreadable number before failure ∧ before.pass? = none := by
  induction moment generalizing job with
  | zero =>
      rw [jobs_zero] at hjob
      cases hjob
  | succ moment ih =>
      have hearlier : (∃ before : Job, (run.state moment).jobs[number]? = some before ∧
          before.stage = .ended (.imported (.error failure))) →
          ∃ earlier < moment + 1, run.moves earlier = .step (.job number) ∧ ∃ before : Job,
            (run.state earlier).IsUnreadable number before failure ∧ before.pass? = none := by
        rintro ⟨before, hbefore, hstage⟩
        obtain ⟨earlier, hlt, hmove, hunreadable⟩ := ih hbefore hstage
        exact ⟨earlier, Nat.lt_succ_of_lt hlt, hmove, hunreadable⟩
      have hhappens := run.happens moment
      rcases hhappens.jobsGo.of_getElem? hjob with ⟨before, hbefore, hsame⟩ | ⟨-, hjobs⟩
      · by_cases hmove : run.moves moment = .step (.job number)
        · rw [hmove] at hhappens
          rcases hhappens.eq_or_progress hbefore with hstay | hprogress
          · rw [hstay] at hjob
            exact hearlier ⟨job, hjob, hended⟩
          · exact ⟨moment, Nat.lt_succ_self moment, hmove, before,
              isUnreadable_of_imported hbefore hprogress hjob hended⟩
        · obtain ⟨stage, hkept, -, hrests⟩ := hhappens.jobsGo.getElem? hbefore
          obtain rfl := Option.some.inj (hkept.symm.trans hjob)
          exact hearlier ⟨before, hbefore, (hrests hmove).symm.trans hended⟩
      · have hrank := (hhappens.leavesAlone_of_new hjobs).2
        rw [hended] at hrank
        simp [Stage.rank] at hrank

/-- **Requests that fail leave others alone.**  A container that is malformed changes nothing.
An import that ends with a failure has changed nothing for anybody, and the pass of an edit
that ends because it cannot read its project nothing but for its own session. -/
theorem failed_leavesAlone (run : Run) :
    (∀ (moment : ℕ) (project : Int) (vendor : Vendor) (format : Option Container.Format)
      (bytes : ByteArray) (fault : Container.Error),
      run.moves moment = .importContainer project vendor format bytes →
      (run.state moment).importContainer project vendor format bytes = .error fault →
        run.state (moment + 1) = run.state moment) ∧
    (∀ (moment number : ℕ) (job : Job) (failure : Failure),
      (run.state moment).jobs[number]? = some job →
      job.stage = .ended (.imported (.error failure)) →
        ∀ other, run.ActsFor other number →
          (run.state (other + 1)).LeavesAlone (fun _ => True) (run.state other)) ∧
    ∀ (moment number : ℕ) (job : Job) (pass : Pass),
      run.moves moment = .step (.job number) → (run.state moment).jobs[number]? = some job →
      job.purpose = .sync pass →
      ((∃ text, (run.state moment).Tells number (.error (failurePrefix pass.sync ++ text))
          (run.state (moment + 1))) ∨
        ∃ failure, (run.state moment).IsUnreadable number job failure) →
        ∀ other, run.ActsFor other number →
          (run.state (other + 1)).LeavesAlone (pass.session ≠ ·) (run.state other) := by
  refine ⟨?_, ?_, ?_⟩
  · intro moment project vendor format bytes fault hmove hfault
    show (run.state moment).moved (run.moves moment) = _
    rw [hmove, moved, hfault]
    rfl
  · intro moment number job failure hjob hended other hacts
    -- The failure was there when the import began, before anything was written.
    obtain ⟨earlier, -, hmove, before, hunreadable, hpass⟩ :=
      run.exists_isUnreadable moment hjob hended
    obtain ⟨hdatabase, hregistry, hevents, hsessions⟩ :=
      leavesAlone_of_isUnreadable hmove hunreadable hacts
    refine ⟨hdatabase, hregistry, hevents, fun index _ => hsessions index ?_⟩
    intro pass hown
    cases hpass.symm.trans hown
  · intro moment number job pass hmove hjob hpurpose hfails other hacts
    obtain ⟨failure, hunreadable⟩ :
        ∃ failure, (run.state moment).IsUnreadable number job failure := by
      -- An error is told only by a pass that cannot read its project.
      rcases hfails with ⟨text, htells⟩ | hunreadable
      · obtain ⟨found, failure, hunreadable⟩ := isUnreadable_of_tells htells
        obtain rfl := Option.some.inj (hunreadable.found.symm.trans hjob)
        exact ⟨failure, hunreadable⟩
      · exact hunreadable
    obtain ⟨hdatabase, hregistry, hevents, hsessions⟩ :=
      leavesAlone_of_isUnreadable hmove hunreadable hacts
    refine ⟨hdatabase, hregistry, hevents, fun index hindex => hsessions index ?_⟩
    intro other hother
    obtain rfl := Option.some.inj ((Job.pass?_eq_some_iff.mpr hpurpose).symm.trans hother)
    exact hindex

/-- The last entry of this table has no name. -/
def brokenTable : String :=
  "Name,Data Type\nPump,Bool\n,Int\n"

/-- While the database refuses to list projects, an edit is merged and two containers are
imported, the first of which is malformed. -/
def refusingRun : Run where
  first := openService
  isNew := isNew_openService
  moves moment := [
    Move.openSession 8, .authenticate 0 none, .step (.session 0), .handle 0 (.subscribe 7),
    .step (.session 0), .step (.session 0), .handle 0 (.syncEdit (pumpEdit "Bool")), .wait 400,
    .access { refusals := { lists := true } }, .step (.job 0), .step (.job 0), .step (.job 0),
    .step (.job 0), .importContainer 7 .siemens none brokenTable.toUTF8,
    .importContainer 7 .siemens none "Name,Data Type\nPump,Bool\n".toUTF8,
    .step (.job 1)].getD moment (.wait 0)

/-- The pass of the edit. -/
def refusedPass : Pass :=
  { sync := 1, session := 0, token := 0, edit := pumpEdit "Bool" }

/-- Why an import has failed. -/
def importFailure? (job : Job) : Option Failure :=
  match job.stage with
  | .ended (.imported (.error failure)) => some failure
  | _ => none

theorem ended_of_importFailure? (h : importFailure? job = some failure) :
    job.stage = .ended (.imported (.error failure)) := by
  unfold importFailure? at h
  split at h
  · rename_i hstage
    rw [hstage, Option.some.inj h]
  · cases h

theorem failed_leavesAlone_refusing :
    refusingRun.state 14 = refusingRun.state 13 ∧
      (∃ job, (refusingRun.state 16).jobs[1]? = some job ∧
        importFailure? job = some (.internal "list refused") ∧
        ∀ other, refusingRun.ActsFor other 1 →
          (refusingRun.state (other + 1)).LeavesAlone (fun _ => True) (refusingRun.state other)) ∧
      (refusingRun.state 13).sessions[0]?.map (·.outbox.queue.getLast?) =
        some (some (.error "sync 1 failed: Internal error: list refused")) ∧
      ∀ other, refusingRun.ActsFor other 0 →
        (refusingRun.state (other + 1)).LeavesAlone (0 ≠ ·) (refusingRun.state other) := by
  obtain ⟨hmalformed, himports, hpasses⟩ := refusingRun.failed_leavesAlone
  refine ⟨?_, ?_, by decide +kernel, ?_⟩
  · cases hread : (refusingRun.state 13).importContainer 7 .siemens none brokenTable.toUTF8 with
    | error fault => exact hmalformed 13 7 .siemens none _ fault rfl hread
    | ok next =>
        have hrefused : ((refusingRun.state 13).importContainer 7 .siemens none
            brokenTable.toUTF8).toOption.isSome = false := by decide +kernel
        rw [hread] at hrefused
        cases hrefused
  · have hfails : (refusingRun.state 16).jobs[1]?.map importFailure? =
        some (some (.internal "list refused")) := by decide +kernel
    obtain ⟨job, hjob, hfailure⟩ := Option.map_eq_some_iff.mp hfails
    exact ⟨job, hjob, hfailure, himports 16 1 job _ hjob (ended_of_importFailure? hfailure)⟩
  · have hjobs : (refusingRun.state 12).jobs[0]?.map (fun job =>
        (job.pass?, job.project, job.stage.rank)) = some (some refusedPass, 7, 3) := by
      decide +kernel
    obtain ⟨job, hjob, hshape⟩ := Option.map_eq_some_iff.mp hjobs
    simp only [Prod.mk.injEq] at hshape
    obtain ⟨hpass, hproject, hrank⟩ := hshape
    have hturn : (refusingRun.state 12).merges.isHeldBy 7 (.job 0) = true := by decide +kernel
    have hrefused : (refusingRun.state 12).database.refusals.lists = true := by decide +kernel
    refine hpasses 12 0 job refusedPass rfl hjob (Job.pass?_eq_some_iff.mp hpass) (.inr ?_)
    refine ⟨.internal "list refused", hjob, queued_of_rank hrank, hproject ▸ hturn, ?_⟩
    rw [Database.list, hrefused, if_pos rfl]

end Run

end Service

end PlcTags
