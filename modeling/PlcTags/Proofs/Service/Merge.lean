import PlcTags.Proofs.Service.Steps
import PlcTags.Proofs.Store.Merge

/-!
# Merges of the service

A job that is first in line for the merge of its project reads the project, takes the
tags of its batch one by one, and goes on to its announcement or to its end.  Its steps
are those of a `MergeRun` (`isMerging_jobSteps?`), so what a batch does to the store is
what the job does to it.  No failure of the database keeps the job from the end of its
merge, once the project has been read.
-/

namespace PlcTags.Service

open Live

variable {service next : Service} {number : Nat} {job : Job}

/-! ## The stages of a merge -/

/-- A job merges: this is the run that it is on, and these are the tags that remain. -/
structure IsMerging (service : Service) (number : Nat) (job : Job) (run : MergeRun)
    (rest : List Tag) (diagnostics : List Diagnostic) : Prop where
  job : service.jobs[number]? = some { job with stage := .merging run.merge rest diagnostics }
  database : service.database = run.database
  supply : service.supply = run.supply

variable {origin : Origin} {batch rest : List Tag} {diagnostics : List Diagnostic}
  {stored : List StoredTag} {run : MergeRun} {tag : Tag}

/-- The job that is first in line begins its merge. -/
theorem isMerging_of_queued (hjob : service.jobs[number]? = some job)
    (hstage : job.stage = .queued origin batch diagnostics)
    (hturn : service.merges.isHeldBy job.project (.job number) = true)
    (hloads : service.database.list job.project = .ok stored) :
    ∃ next, service.jobStep? number = some next ∧
      next.IsMerging number job
        ⟨.start job.project origin stored, service.database, service.supply⟩ batch diagnostics := by
  refine ⟨service.setStage number (.merging (.start job.project origin stored) batch diagnostics),
    ?_, getElem?_jobs_setStage hjob _, rfl, rfl⟩
  rw [jobStep?, hjob]
  simp only [Option.bind_eq_bind, Option.bind_some, hstage, hturn, if_true, loadForMerge, hloads]
  rfl

/-- A step of the merge takes the next tag. -/
theorem isMerging_take (h : service.IsMerging number job run (tag :: rest) diagnostics) :
    ∃ next, service.jobStep? number = some next ∧
      next.IsMerging number job (run.take tag) rest diagnostics := by
  refine ⟨service.mergeTag number run.merge tag rest diagnostics, ?_, ?_⟩
  · rw [jobStep?, h.job]
    rfl
  · have hjob := getElem?_jobs_setStage h.job
      (.merging (run.take tag).merge rest diagnostics)
    unfold mergeTag
    rw [h.database, h.supply]
    exact ⟨hjob, rfl, rfl⟩

/-- The steps of a job that merges are those of its run. -/
theorem isMerging_jobSteps? (h : service.IsMerging number job run rest diagnostics) :
    ∃ next, service.jobSteps? number rest.length = some next ∧
      next.IsMerging number job (run.takeAll rest) [] diagnostics := by
  induction rest generalizing service run with
  | nil => exact ⟨service, rfl, h⟩
  | cons tag rest ih =>
      obtain ⟨middle, hstep, hmiddle⟩ := isMerging_take h
      obtain ⟨next, hsteps, hnext⟩ := ih hmiddle
      exact ⟨next, (jobSteps?_succ hstep).trans hsteps, hnext⟩

/-- Where a merge leaves a job that is for this. -/
def stageAfterMerge (purpose : Purpose) (report : MergeReport) (diagnostics : List Diagnostic) :
    Stage :=
  match purpose with
  | .sync _ | .importing _ => .announcing (some report) diagnostics
  | .merge | .announce => .ended (.merged (.ok report))

theorem endMerge_frame (service : Service) (number : Nat) (job : Job) (report : MergeReport)
    (diagnostics : List Diagnostic) :
    (service.endMerge number job report diagnostics).jobs =
        (service.setStage number (stageAfterMerge job.purpose report diagnostics)).jobs ∧
      (service.endMerge number job report diagnostics).database = service.database := by
  unfold endMerge stageAfterMerge
  cases job.purpose <;> exact ⟨rfl, rfl⟩

/-- Without a tag that remains the merge is over. -/
theorem jobStep?_of_isMerging_nil (h : service.IsMerging number job run [] diagnostics) :
    ∃ next, service.jobStep? number = some next ∧
      next.jobs[number]? =
        some { job with stage := stageAfterMerge job.purpose run.merge.report diagnostics } ∧
      next.database = run.database := by
  obtain ⟨hjobs, hdatabase⟩ := service.endMerge_frame number
    { job with stage := .merging run.merge [] diagnostics } run.merge.report diagnostics
  refine ⟨_, ?_, ?_, hdatabase.trans h.database⟩
  · rw [jobStep?, h.job]
    rfl
  · rw [hjobs]
    exact getElem?_jobs_setStage h.job _

/-! ## The meaning of a merge -/

/-- **What a merge does.**  A job whose turn it is to merge, and that can read its
project, goes on to the end of the merge whatever the database refuses.  If no write fails, the
store is then what the batch makes of it. -/
theorem merged_of_queued (hjob : service.jobs[number]? = some job)
    (hstage : job.stage = .queued origin batch diagnostics)
    (hturn : service.merges.isHeldBy job.project (.job number) = true)
    (hloads : service.database.list job.project = .ok stored) :
    ∃ after report, service.jobSteps? number (batch.length + 2) = some after ∧
      after.jobs[number]? =
        some { job with stage := stageAfterMerge job.purpose report diagnostics } ∧
      ((∀ problem ∈ report.errors, problem.code ≠ .storeConflict) →
        service.database.store.Merged job.project origin batch after.database.store) := by
  -- One step to begin, one for each tag, and one to end.
  obtain ⟨first, hfirst, hstarted⟩ := isMerging_of_queued hjob hstage hturn hloads
  obtain ⟨last, hsteps, htaken⟩ := isMerging_jobSteps? hstarted
  obtain ⟨after, hend, hafter, hdatabase⟩ := jobStep?_of_isMerging_nil htaken
  refine ⟨after, _, ?_, hafter, ?_⟩
  · rw [jobSteps?_succ hfirst, jobSteps?_add hsteps, jobSteps?_succ hend]
    rfl
  · intro hsucceeds
    rw [hdatabase]
    exact (MergeRun.takesAll_takeAll (Database.list_eq_ok hloads) hsucceeds).merged

/-- A tag of this name. -/
def pumpTag (name : String) (address : String) : Tag where
  name := name
  dataType := .bool
  address := address
  scope := .local
  category := .memory
  vendor := .siemens

/-- A merge of two spellings of one name. -/
def pumpJob : Job where
  project := 7
  purpose := .merge
  stage := .queued .generated [pumpTag "PUMP" "M0.0", pumpTag " pump" "M0.1"] []

/-- A service with a tag of this name, and with the merge of two more spellings. -/
def pumpService : Service where
  settings := {}
  database :=
    { store := ⟨[.ofTag (Supply.stamp {}) 7 (pumpTag "Pump" "")], List.pairwise_singleton _ _⟩ }
  events := { capacity := 1 }
  jobs := [pumpJob]
  merges := ⟨[(7, .job 0)]⟩

/-- The problems that a merge asked for by itself has ended with. -/
def mergeProblems (job : Job) : List Diagnostic :=
  match job.stage with
  | .ended (.merged (.ok report)) => report.errors
  | _ => []

theorem merged_pumpService : ∃ after, pumpService.jobSteps? 0 4 = some after ∧
    pumpService.database.store.Merged 7 .generated
      [pumpTag "PUMP" "M0.0", pumpTag " pump" "M0.1"] after.database.store := by
  have hjob : pumpService.jobs[0]? = some pumpJob := rfl
  have hloads : pumpService.database.list pumpJob.project = .ok
      [{ id := (Supply.stamp {}).id, project := 7, tag := pumpTag "Pump" "",
         createdAt := (Supply.stamp {}).time, updatedAt := (Supply.stamp {}).time }] := by
    show List.mapM Store.Row.read [.ofTag (Supply.stamp {}) 7 (pumpTag "Pump" "")] = _
    rw [List.mapM_cons, Store.read_ofTag]
    rfl
  obtain ⟨after, report, hsteps, hafter, hmerged⟩ :=
    merged_of_queued hjob rfl (by decide) hloads
  refine ⟨after, hsteps, hmerged ?_⟩
  -- The steps are evaluated only to see that no write has failed.
  have hproblems : ((pumpService.jobSteps? 0 4).bind (·.jobs[0]?)).map mergeProblems =
      some [Merge.duplicate " pump"] := by
    decide +kernel
  have hreport : report.errors = [Merge.duplicate " pump"] := by
    have hsteps' : pumpService.jobSteps? 0 4 = some after := hsteps
    rw [hsteps', Option.bind_some, hafter] at hproblems
    exact Option.some.inj hproblems
  rw [hreport]
  decide

end PlcTags.Service
