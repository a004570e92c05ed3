import PlcTags.Proofs.Service.Merge
import PlcTags.Proofs.Service.Passes

/-!
# The history of merges

A merge is called when a job has got in line for it.  What becomes of the call is written
down along the run: the moment at which it reads its project, what the database was like
at the turn of each of its tags, the keys that it counts as new, and what it returns
(`Run.calls`).  The calls stand in the order in which they got their turn.

`CallsGo` lists what a moment of a run can add to the history, together with what happens
to the service then.
-/

namespace PlcTags

open Live

namespace Live

/-- What a merge has left with a job. -/
def Stage.result? : Stage → Option (Except Failure MergeReport)
  | .announcing report _ | .delivering report _ _ => report.map .ok
  | .ended (.merged result) => some result
  | _ => none

/-- A merge that has got its turn, and what has come of it. -/
structure MergeCall where
  /-- The job that calls. -/
  number : Nat
  project : Int
  origin : Origin
  batch : List Tag
  /-- The database when the project was read. -/
  loading : Database
  /-- The database at the turn of each tag of the batch so far. -/
  turns : List Database := []
  /-- The keys of the tags that were counted as new. -/
  inserted : List String := []
  returned : Option (Except Failure MergeReport) := none

/-- The history after the step of a job on this database. -/
def Job.recorded (job : Job) (number : Nat) (database : Database) (later : Stage)
    (calls : List MergeCall) : List MergeCall :=
  let onOwn (change : MergeCall → MergeCall) :=
    calls.map fun call => if call.number = number then change call else call
  match job.stage, later with
  | .queued .., .queued .. => calls
  | .queued origin batch _, _ =>
    let returned := match database.list job.project with
      | .ok _ => none
      | .error failure => some (.error failure)
    calls ++ [{ number, project := job.project, origin, batch, loading := database, returned }]
  | .merging before (tag :: _) _, .merging after _ _ =>
    let inserted := if before.report.inserted < after.report.inserted then [tag.key] else []
    onOwn fun call => { call with
      turns := call.turns ++ [database]
      inserted := call.inserted ++ inserted }
  | .merging _ [] _, stage => onOwn ({ · with returned := stage.result? })
  | _, _ => calls

end Live

namespace Service

/-- The history after a move. -/
def recorded (service next : Service) (calls : List MergeCall) : Move → List MergeCall
  | .step (.job number) =>
    match service.jobs[number]?, next.jobs[number]? with
    | some job, some later => job.recorded number service.database later.stage calls
    | _, _ => calls
  | _ => calls

/-- The merges that have got their turn before a moment, in the order of their turns. -/
def Run.calls (run : Run) : ℕ → List MergeCall
  | 0 => []
  | moment + 1 =>
    (run.state moment).recorded (run.state (moment + 1)) (run.calls moment) (run.moves moment)

variable {service next : Service} {move : Move} {number : Nat} {job : Job} {stage : Stage}
  {calls : List MergeCall}

/-- The call of a job changes. -/
def onCall (number : Nat) (change : MergeCall → MergeCall) (calls : List MergeCall) :
    List MergeCall :=
  calls.map fun call => if call.number = number then change call else call

/-- A job takes this step, at the end of which it is at this stage. -/
structure Steps (service : Service) (number : Nat) (job : Job) (stage : Stage) (next : Service) :
    Prop where
  before : service.jobs[number]? = some job
  jobs : next.jobs = service.jobs.set number (job.withStage stage)

theorem Steps.getElem?_self (h : service.Steps number job stage next) :
    next.jobs[number]? = some (job.withStage stage) := by
  obtain ⟨hlength, -⟩ := List.getElem?_eq_some_iff.mp h.before
  rw [h.jobs, List.getElem?_set_self hlength]

theorem Steps.getElem?_of_ne (h : service.Steps number job stage next) {other : Nat}
    (hne : other ≠ number) : next.jobs[other]? = service.jobs[other]? := by
  rw [h.jobs, List.getElem?_set_ne (Ne.symm hne)]

/-- What a moment does to the history. -/
inductive CallsGo (service : Service) (move : Move) (calls : List MergeCall) (next : Service) :
    List MergeCall → Prop where
  /-- No merge begins, goes on or ends. -/
  | stay (hstore : next.database.store = service.database.store ∨
        ∃ database, move = .access database ∧ next.database = database)
      (hmerging : ∀ {number : Nat} {job : Job}, job.stage.rank = 4 →
        (next.jobs[number]? = some job ↔ service.jobs[number]? = some job))
      (hwaiting : ∀ {number : Nat} {job later : Job}, service.jobs[number]? = some job →
        next.jobs[number]? = some later → job.stage.rank = 3 → later = job)
      (hresults : ∀ {number : Nat} {later : Job} {result : Except Failure MergeReport},
        next.jobs[number]? = some later → later.stage.result? = some result →
          ∃ job, service.jobs[number]? = some job ∧ job.stage.result? = some result) :
      CallsGo service move calls next calls
  | load {number : Nat} {job : Job} {origin : Origin} {batch : List Tag}
      {diagnostics : List Diagnostic} {stored : List StoredTag}
      (hmove : move = .step (.job number)) (hstage : job.stage = .queued origin batch diagnostics)
      (hturn : service.merges.isHeldBy job.project (.job number) = true)
      (hloads : service.database.list job.project = .ok stored)
      (hsteps : service.Steps number job
        (.merging (.start job.project origin stored) batch diagnostics) next)
      (hdatabase : next.database = service.database) :
      CallsGo service move calls next (calls ++
        [{ number, project := job.project, origin, batch, loading := service.database }])
  | fail {number : Nat} {job : Job} {origin : Origin} {batch : List Tag}
      {diagnostics : List Diagnostic} {failure : Failure} {stage : Stage}
      (hmove : move = .step (.job number)) (hstage : job.stage = .queued origin batch diagnostics)
      (hturn : service.merges.isHeldBy job.project (.job number) = true)
      (hfails : service.database.list job.project = .error failure)
      (hsteps : service.Steps number job stage next) (hrank : 7 ≤ stage.rank)
      (hresult : ∀ result, stage.result? = some result → result = .error failure)
      (hdatabase : next.database = service.database) :
      CallsGo service move calls next (calls ++
        [{ number, project := job.project, origin, batch, loading := service.database,
           returned := some (.error failure) }])
  | take {number : Nat} {job : Job} {merge : Merge} {tag : Tag} {rest : List Tag}
      {diagnostics : List Diagnostic} (hmove : move = .step (.job number))
      (hstage : job.stage = .merging merge (tag :: rest) diagnostics)
      (hsteps : service.Steps number job
        (.merging (merge.step service.supply.stamp service.database tag).1 rest diagnostics) next)
      (hdatabase : next.database = (merge.step service.supply.stamp service.database tag).2) :
      CallsGo service move calls next (onCall number (fun call =>
        { call with
          turns := call.turns ++ [service.database]
          inserted := call.inserted ++
            if merge.report.inserted <
              (merge.step service.supply.stamp service.database tag).1.report.inserted
            then [tag.key] else [] }) calls)
  | finish {number : Nat} {job : Job} {merge : Merge} {diagnostics : List Diagnostic}
      {stage : Stage} (hmove : move = .step (.job number))
      (hstage : job.stage = .merging merge [] diagnostics)
      (hsteps : service.Steps number job stage next) (hrank : 5 ≤ stage.rank)
      (hresult : stage.result? = some (.ok merge.report))
      (hdatabase : next.database = service.database) :
      CallsGo service move calls next
        (onCall number ({ · with returned := some (.ok merge.report) }) calls)

/-- A move that is no step of a job adds nothing to the history. -/
theorem recorded_of_ne (h : ∀ number, move ≠ .step (.job number)) :
    service.recorded next calls move = calls := by
  cases move with
  | step party =>
      cases party with
      | session number => rfl
      | job number => exact absurd rfl (h number)
  | _ => rfl

theorem recorded_of_steps {stage : Stage} (h : service.Steps number job stage next) :
    service.recorded next calls (.step (.job number)) =
      job.recorded number service.database stage calls := by
  simp only [recorded, h.before, h.getElem?_self, Job.stage_withStage]

/-- The step of a job that is not in line for a merge, and does not merge. -/
theorem callsGo_of_rank {stage : Stage} (hsteps : service.Steps number job stage next)
    (hdatabase : next.database = service.database)
    (hrank : job.stage.rank ≠ 3 ∧ job.stage.rank ≠ 4) (hlater : stage.rank ≠ 4)
    (hresult : ∀ result, stage.result? = some result → job.stage.result? = some result) :
    CallsGo service (.step (.job number)) calls next
      (service.recorded next calls (.step (.job number))) := by
  -- The calls change only with the step of a job in line for a merge, or in one.
  have hsame : job.recorded number service.database stage calls = calls := by
    unfold Job.recorded
    cases hstage : job.stage with
    | queued => exact absurd (by rw [hstage]; rfl) hrank.1
    | merging => exact absurd (by rw [hstage]; rfl) hrank.2
    | _ => rfl
  obtain ⟨hlength, -⟩ := List.getElem?_eq_some_iff.mp hsteps.before
  rw [recorded_of_steps hsteps, hsame]
  refine .stay (.inl (congrArg Database.store hdatabase)) ?_ ?_ ?_
  · intro other found hfound
    rw [hsteps.jobs, List.getElem?_set]
    split
    · rename_i hother
      subst hother
      constructor
      · intro heq
        obtain rfl := Option.some.inj heq
        exact absurd hfound hlater
      · intro heq
        obtain rfl := Option.some.inj (hsteps.before.symm.trans heq)
        exact absurd hfound hrank.2
    · rfl
  · intro other found later hfound hlaterJob hwaits
    rw [hsteps.jobs, List.getElem?_set] at hlaterJob
    split at hlaterJob
    · rename_i hother
      subst hother
      obtain rfl := Option.some.inj (hsteps.before.symm.trans hfound)
      exact absurd hwaits hrank.1
    · exact Option.some.inj (hlaterJob.symm.trans hfound)
  · intro other later result hlater hleft
    rw [hsteps.jobs, List.getElem?_set] at hlater
    split at hlater
    · rename_i hother
      subst hother
      obtain rfl := Option.some.inj hlater
      exact ⟨job, hsteps.before, hresult result hleft⟩
    · exact ⟨later, hlater, hleft⟩

theorem steps_of_jobs (stage : Stage) (hjob : service.jobs[number]? = some job)
    (hjobs : next.jobs = (service.setStage number stage).jobs) :
    service.Steps number job stage next := by
  refine ⟨hjob, ?_⟩
  rw [hjobs, setStage, List.modify_eq_set_getElem?, hjob]
  rfl

theorem database_endAnnouncement (service : Service) (number : Nat) (job : Job)
    (report : Option MergeReport) (diagnostics : List Diagnostic) (result : Except Failure Nat) :
    (service.endAnnouncement number job report diagnostics result).database =
      service.database := by
  unfold endAnnouncement
  dsimp only
  split <;> rfl

/-- The steps of jobs that merge nothing leave the database alone. -/
theorem database_of_progress (h : Progress service number job next)
    (hrank : job.stage.rank ≠ 4) : next.database = service.database := by
  cases h with
  | unloaded =>
      unfold failMerge
      split <;> rfl
  | merged hstage | finished hstage =>
      rw [hstage] at hrank
      exact absurd rfl hrank
  | unlisted => exact service.database_endAnnouncement number job _ _ _
  | delivered =>
      exact (database_endAnnouncement _ number job _ _ _).trans
        (service.sameWork_deliver job.project _).database
  | _ => rfl

/-! What a merge leaves with a job is never made up, and is forgotten with the announcement. -/

theorem stage_of_setStage {later : Job}
    (h : (service.setStage number stage).jobs[number]? = some later) :
    later.stage = stage := by
  unfold setStage at h
  rw [List.getElem?_modify_eq] at h
  obtain ⟨job, -, rfl⟩ := Option.map_eq_some_iff.mp h
  rfl

theorem result?_tell {pass : Pass} {message : ServerMessage} {later : Job}
    (h : (service.tell number pass message).jobs[number]? = some later) :
    later.stage.result? = none := by
  unfold tell at h
  rw [stage_of_setStage h]
  split <;> rfl

theorem result?_endAnnouncement {report : Option MergeReport} {diagnostics : List Diagnostic}
    {result : Except Failure Nat} {later : Job}
    (h : (service.endAnnouncement number job report diagnostics result).jobs[number]? =
      some later) : later.stage.result? = none := by
  unfold endAnnouncement at h
  dsimp only at h
  split at h
  · exact result?_tell h
  all_goals
    rw [stage_of_setStage h]
    rfl

theorem result?_failMerge {failure : Failure} {later : Job}
    (h : (service.failMerge number job failure).jobs[number]? = some later)
    {result : Except Failure MergeReport} (hresult : later.stage.result? = some result) :
    result = .error failure := by
  unfold failMerge at h
  split at h
  · rw [result?_tell h] at hresult
    cases hresult
  all_goals
    rw [stage_of_setStage h] at hresult
    cases hresult
  all_goals rfl

theorem result?_of_progress (h : Progress service number job next)
    (hrank : job.stage.rank ≠ 3 ∧ job.stage.rank ≠ 4) {later : Job}
    (hlater : next.jobs[number]? = some later) {result : Except Failure MergeReport}
    (hresult : later.stage.result? = some result) : job.stage.result? = some result := by
  cases h with
  | superseded | due | extracted | validated | admitted | unheard =>
      rw [stage_of_setStage hlater] at hresult
      cases hresult
  | loaded hstage | unloaded hstage | merged hstage | finished hstage =>
      rw [hstage] at hrank
      simp [Stage.rank] at hrank
  | listed hstage =>
      rw [stage_of_setStage hlater] at hresult
      rw [hstage]
      exact hresult
  | unlisted | delivered =>
      rw [result?_endAnnouncement hlater] at hresult
      cases hresult

theorem result?_stageAfterMerge (purpose : Purpose) (report : MergeReport)
    (diagnostics : List Diagnostic) :
    (stageAfterMerge purpose report diagnostics).result? = some (.ok report) := by
  cases purpose <;> rfl

theorem rank_stageAfterMerge (purpose : Purpose) (report : MergeReport)
    (diagnostics : List Diagnostic) : 5 ≤ (stageAfterMerge purpose report diagnostics).rank := by
  cases purpose <;> simp [stageAfterMerge, Stage.rank]

/-- The history after any other step of a job than one that begins, goes on with or ends a
merge. -/
theorem callsGo_of_progress_of_rank (hjob : service.jobs[number]? = some job)
    (h : Progress service number job next) (hqueued : job.stage.rank ≠ 3)
    (hmerging : job.stage.rank ≠ 4) :
    CallsGo service (.step (.job number)) calls next
      (service.recorded next calls (.step (.job number))) := by
  obtain ⟨stage, hjobs, hpassage⟩ := passes_of_progress h
  have hsteps := steps_of_jobs stage hjob hjobs
  refine callsGo_of_rank hsteps (database_of_progress h hmerging) ⟨hqueued, hmerging⟩ ?_ ?_
  · intro hlater
    rw [hlater] at hpassage
    generalize job.stage.rank = before at hpassage hqueued hmerging
    generalize next.merges = merges, next.announcements = announcements at hpassage
    cases hpassage <;> omega
  · intro result hresult
    exact result?_of_progress h ⟨hqueued, hmerging⟩ hsteps.getElem?_self hresult

theorem callsGo_of_progress (hjob : service.jobs[number]? = some job)
    (h : Progress service number job next) :
    CallsGo service (.step (.job number)) calls next
      (service.recorded next calls (.step (.job number))) := by
  have hother : job.stage.rank ≠ 3 → job.stage.rank ≠ 4 →
      CallsGo service (.step (.job number)) calls next
        (service.recorded next calls (.step (.job number))) :=
    callsGo_of_progress_of_rank hjob h
  cases h with
  | @loaded origin batch diagnostics stored hstage hturn hloads =>
      have hsteps := steps_of_jobs (.merging (.start job.project origin stored) batch diagnostics)
        hjob (Eq.refl (service.setStage number _).jobs)
      rw [recorded_of_steps hsteps]
      simp only [Job.recorded, hstage, hloads]
      exact .load rfl hstage hturn hloads hsteps rfl
  | @unloaded origin batch diagnostics failure hstage hturn hfails =>
      have hdatabase := database_of_progress (.unloaded hstage hturn hfails)
        (by rw [hstage]; exact Nat.succ_ne_self 3 |>.symm)
      obtain ⟨stage, hrank, hjobs, -⟩ := leads_failMerge
        { service with merges := service.merges.release job.project (.job number) }
        number job failure
      have hsteps := steps_of_jobs stage hjob hjobs
      have hwritten : job.recorded number service.database stage calls = calls ++
          [{ number, project := job.project, origin, batch, loading := service.database,
             returned := some (.error failure) }] := by
        simp only [Job.recorded, hstage, hfails]
        cases stage with
        | queued => simp [Stage.rank] at hrank
        | _ => rfl
      rw [recorded_of_steps hsteps, hwritten]
      refine .fail rfl hstage hturn hfails hsteps hrank ?_ hdatabase
      exact fun result hresult => result?_failMerge hsteps.getElem?_self hresult
  | @merged merge tag rest diagnostics hstage =>
      have hsteps : service.Steps number job
          (.merging (merge.step service.supply.stamp service.database tag).1 rest diagnostics)
          (service.mergeTag number merge tag rest diagnostics) := steps_of_jobs _ hjob rfl
      rw [recorded_of_steps hsteps]
      simp only [Job.recorded, hstage]
      exact .take rfl hstage hsteps rfl
  | @finished merge diagnostics hstage =>
      obtain ⟨hjobs, hdatabase⟩ := service.endMerge_frame number job merge.report diagnostics
      have hsteps := steps_of_jobs _ hjob hjobs
      have hresult := result?_stageAfterMerge job.purpose merge.report diagnostics
      rw [recorded_of_steps hsteps]
      simp only [Job.recorded, hstage, hresult]
      exact .finish rfl hstage hsteps (rank_stageAfterMerge _ _ _) hresult hdatabase
  | superseded hpass hstage => exact hother (by omega) (by omega)
  | due hpass hstage | extracted hpass hstage | validated hpass hstage | listed hstage
  | unlisted hstage | delivered hstage | admitted hpass hstage | unheard hpass hstage =>
      apply hother <;> rw [hstage] <;> simp [Stage.rank]

/-- A job that merges always has a step. -/
theorem rank_ne_of_stuck (hjob : service.jobs[number]? = some job)
    (hstuck : service.jobStep? number = none) : job.stage.rank ≠ 4 := by
  intro hrank
  cases hstage : job.stage with
  | merging merge rest diagnostics =>
      rw [jobStep?, hjob] at hstuck
      cases rest <;> simp [hstage] at hstuck
  | _ =>
      rw [hstage] at hrank
      cases hrank

theorem callsGo_of_stuck
    (hstuck : ∀ number, move = .step (.job number) → service.jobStep? number = none) :
    CallsGo service move calls service (service.recorded service calls move) := by
  have hsame : service.recorded service calls move = calls := by
    by_cases hmove : ∃ number, move = .step (.job number)
    · obtain ⟨number, rfl⟩ := hmove
      cases hjob : service.jobs[number]? with
      | none => simp only [recorded, hjob]
      | some job =>
          have hrank := rank_ne_of_stuck hjob (hstuck number rfl)
          simp only [recorded, hjob, Job.recorded]
          cases hstage : job.stage with
          | merging => exact absurd (by rw [hstage]; rfl) hrank
          | _ => rfl
    · exact recorded_of_ne fun number heq => hmove ⟨number, heq⟩
  rw [hsame]
  refine .stay (.inl rfl) (fun _ => Iff.rfl) ?_ fun hlater hresult => ⟨_, hlater, hresult⟩
  intro number job later hjob hlater _
  exact Option.some.inj (hlater.symm.trans hjob)

/-- A move after which the jobs are the same. -/
theorem callsGo_of_jobs_eq (hmove : ∀ number, move ≠ .step (.job number))
    (hjobs : next.jobs = service.jobs) (hstore : next.database.store = service.database.store) :
    CallsGo service move calls next (service.recorded next calls move) := by
  rw [recorded_of_ne hmove]
  refine .stay (.inl hstore) (fun _ => by rw [hjobs]) ?_ ?_
  · intro number job later hjob hlater _
    rw [hjobs] at hlater
    exact Option.some.inj (hlater.symm.trans hjob)
  · intro number later result hlater hresult
    rw [hjobs] at hlater
    exact ⟨later, hlater, hresult⟩

/-- A job has been added, which has not got to its merge. -/
theorem callsGo_of_append {new : Job} (hmove : ∀ number, move ≠ .step (.job number))
    (hjobs : next.jobs = service.jobs ++ [new]) (hrank : new.stage.rank ≠ 4)
    (hnew : new.stage.result? = none) (hstore : next.database.store = service.database.store) :
    CallsGo service move calls next (service.recorded next calls move) := by
  have hfound : ∀ {number : Nat} {job : Job}, next.jobs[number]? = some job →
      service.jobs[number]? = some job ∨ job = new := by
    intro number job hjob
    rw [hjobs] at hjob
    exact (of_getElem?_concat hjob).imp_right And.right
  have hkept : ∀ {number : Nat} {job : Job}, service.jobs[number]? = some job →
      next.jobs[number]? = some job := by
    intro number job hjob
    rw [hjobs, List.getElem?_append_left (List.getElem?_eq_some_iff.mp hjob).1, hjob]
  rw [recorded_of_ne hmove]
  refine .stay (.inl hstore) ?_ ?_ ?_
  · intro number job hmerging
    refine ⟨fun hlater => (hfound hlater).resolve_right ?_, hkept⟩
    rintro rfl
    exact hrank hmerging
  · intro number job later hjob hlater _
    exact Option.some.inj (hlater.symm.trans (hkept hjob))
  · intro number later result hlater hresult
    refine ⟨later, (hfound hlater).resolve_right ?_, hresult⟩
    rintro rfl
    cases hnew.symm.trans hresult

/-- **What a moment adds to the history.** -/
theorem Happens.callsGo (h : Happens service move next) (calls : List MergeCall) :
    CallsGo service move calls next (service.recorded next calls move) := by
  cases h with
  | nothing hstuck => exact callsGo_of_stuck hstuck
  | progress hjob hstep hprogress => exact callsGo_of_progress hjob hprogress
  | conduct hmove hconducts hend htasks =>
      exact callsGo_of_jobs_eq hmove htasks.jobs (congrArg Database.store htasks.database)
  | crash hmove hconducts htasks =>
      exact callsGo_of_jobs_eq hmove htasks.jobs (congrArg Database.store htasks.database)
  | edit hsession hidle hstate hdelay => exact callsGo_of_append nofun rfl nofun rfl rfl
  | opened hmove hstandings hregistry hannouncements htasks =>
      exact callsGo_of_jobs_eq hmove htasks.jobs (congrArg Database.store htasks.database)
  | messages hmove hseats hannouncements htasks =>
      exact callsGo_of_jobs_eq hmove htasks.jobs (congrArg Database.store htasks.database)
  | merge hmove hpurpose => exact callsGo_of_append hmove rfl nofun rfl rfl
  | announcement project => exact callsGo_of_append nofun rfl nofun rfl rfl
  | wait duration => exact callsGo_of_jobs_eq nofun rfl rfl
  | access database =>
      refine .stay (.inr ⟨database, rfl, rfl⟩) (fun _ => Iff.rfl) ?_
        fun hlater hresult => ⟨_, hlater, hresult⟩
      intro number job later hjob hlater _
      exact Option.some.inj (hlater.symm.trans hjob)

end Service

end PlcTags
