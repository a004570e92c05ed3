import PlcTags.Proofs.Service.Steps

/-!
# How a job goes on

`Progress` has one constructor for each thing that a job can do next: under which
conditions it does so, and what the whole service is after that.  Everything else that
has to be known of the steps of jobs follows from it, so no other proof opens the step of
a job.

The stages of a job are passed through in one direction, which `Stage.rank` counts.
-/

namespace PlcTags

open Live

namespace Live

namespace Stage

/-- How far a job at this stage is. -/
def rank : Stage → Nat
  | .delayed _ => 0
  | .extracting => 1
  | .validating .. => 2
  | .queued .. => 3
  | .merging .. => 4
  | .announcing .. => 5
  | .delivering .. => 6
  | .reporting => 7
  | .ended _ => 8

end Stage

/-- The job at another stage. -/
def Job.withStage (job : Job) (stage : Stage) : Job :=
  { job with stage }

@[simp] theorem Job.stage_withStage (job : Job) (stage : Stage) :
    (job.withStage stage).stage = stage := rfl

@[simp] theorem Job.project_withStage (job : Job) (stage : Stage) :
    (job.withStage stage).project = job.project := rfl

@[simp] theorem Job.pass?_withStage (job : Job) (stage : Stage) :
    (job.withStage stage).pass? = job.pass? := rfl

theorem Job.pass?_eq_some_iff {job : Job} {pass : Pass} :
    job.pass? = some pass ↔ job.purpose = .sync pass := by
  unfold Job.pass?
  split <;> simp_all

end Live

namespace Service

variable {service next : Service} {number : Nat} {job : Job}

/-- What a job can do next. -/
inductive Progress (service : Service) (number : Nat) (job : Job) : Service → Prop where
  /-- A pass finds that a later edit has come. -/
  | superseded {pass : Pass} (hpass : job.pass? = some pass) (hstage : job.stage.rank < 3)
      (hlate : service.isSuperseded pass = true) :
      Progress service number job (service.setStage number (.ended .superseded))
  | due {pass : Pass} {due : Nat} (hpass : job.pass? = some pass)
      (hstage : job.stage = .delayed due) (hlive : service.isSuperseded pass = false)
      (hdue : due ≤ service.now) :
      Progress service number job (service.setStage number .extracting)
  | extracted {pass : Pass} (hpass : job.pass? = some pass) (hstage : job.stage = .extracting)
      (hlive : service.isSuperseded pass = false) :
      Progress service number job (service.setStage number
        (.validating (Source.extract pass.edit.vendor pass.edit.sourceText).tags
          (Source.extract pass.edit.vendor pass.edit.sourceText).tagDiagnostics))
  | validated {pass : Pass} {tags : List Tag} {diagnostics : List Diagnostic}
      (hpass : job.pass? = some pass) (hstage : job.stage = .validating tags diagnostics)
      (hlive : service.isSuperseded pass = false) :
      Progress service number job (service.queueMerge number job.project pass.edit.origin
        (acceptedTags tags) (diagnostics ++ batchIssues tags))
  | loaded {origin : Origin} {batch : List Tag} {diagnostics : List Diagnostic}
      {stored : List StoredTag} (hstage : job.stage = .queued origin batch diagnostics)
      (hturn : service.merges.isHeldBy job.project (.job number) = true)
      (hloads : service.database.list job.project = .ok stored) :
      Progress service number job (service.setStage number
        (.merging (.start job.project origin stored) batch diagnostics))
  | unloaded {origin : Origin} {batch : List Tag} {diagnostics : List Diagnostic}
      {failure : Failure} (hstage : job.stage = .queued origin batch diagnostics)
      (hturn : service.merges.isHeldBy job.project (.job number) = true)
      (hfails : service.database.list job.project = .error failure) :
      Progress service number job
        ({ service with
          merges := service.merges.release job.project (.job number) }.failMerge number job
            failure)
  | merged {merge : Merge} {tag : Tag} {rest : List Tag} {diagnostics : List Diagnostic}
      (hstage : job.stage = .merging merge (tag :: rest) diagnostics) :
      Progress service number job (service.mergeTag number merge tag rest diagnostics)
  | finished {merge : Merge} {diagnostics : List Diagnostic}
      (hstage : job.stage = .merging merge [] diagnostics) :
      Progress service number job (service.endMerge number job merge.report diagnostics)
  | listed {report : Option MergeReport} {diagnostics : List Diagnostic} {tags : List StoredTag}
      (hstage : job.stage = .announcing report diagnostics)
      (hturn : service.announcements.isHeldBy job.project (.job number) = true)
      (hloads : service.database.list job.project = .ok tags) :
      Progress service number job (service.setStage number (.delivering report diagnostics tags))
  /-- The project has no subscribers or cannot be read. -/
  | unlisted {report : Option MergeReport} {diagnostics : List Diagnostic}
      {result : Except Failure Nat} (hstage : job.stage = .announcing report diagnostics)
      (hturn : service.announcements.isHeldBy job.project (.job number) = true) :
      Progress service number job
        (service.endAnnouncement number job report diagnostics result)
  | delivered {report : Option MergeReport} {diagnostics : List Diagnostic}
      {tags : List StoredTag} (hstage : job.stage = .delivering report diagnostics tags) :
      Progress service number job (service.announce number job report diagnostics tags)
  /-- There is room for the report of a pass. -/
  | admitted {pass : Pass} {session : Session} {outbox : Outbox}
      (hpass : job.pass? = some pass) (hstage : job.stage = .reporting)
      (hsession : service.sessions[pass.session]? = some session)
      (houtbox : session.outbox.admit? (.job number) = some outbox) :
      Progress service number job ((service.setSession pass.session
        { session with outbox }).setStage number (.ended .told))
  /-- Nobody will take the report of a pass out any more. -/
  | unheard {pass : Pass} (hpass : job.pass? = some pass) (hstage : job.stage = .reporting) :
      Progress service number job (service.setStage number (.ended .told))

/-! ## Every step is one of these -/

theorem progress_of_awaitDelay? {pass : Pass} {due : Nat} (hpass : job.pass? = some pass)
    (hstage : job.stage = .delayed due) (h : service.awaitDelay? number pass due = some next) :
    Progress service number job next := by
  unfold awaitDelay? at h
  split at h
  · rename_i hlate
    obtain rfl := Option.some.inj h
    exact .superseded hpass (by rw [hstage]; exact Nat.zero_lt_succ 2) hlate
  · rename_i hlive
    simp only [Option.ite_none_right_eq_some] at h
    obtain ⟨hdue, h⟩ := h
    obtain rfl := Option.some.inj h
    exact .due hpass hstage (Bool.eq_false_iff.mpr hlive) hdue

theorem progress_extract {pass : Pass} (hpass : job.pass? = some pass)
    (hstage : job.stage = .extracting) :
    Progress service number job (service.extract number pass) := by
  unfold extract
  dsimp only
  split
  · rename_i hlate
    exact .superseded hpass (by rw [hstage]; decide) hlate
  · rename_i hlive
    exact .extracted hpass hstage (Bool.eq_false_iff.mpr hlive)

theorem progress_validate {pass : Pass} {tags : List Tag} {diagnostics : List Diagnostic}
    (hpass : job.pass? = some pass) (hstage : job.stage = .validating tags diagnostics) :
    Progress service number job
      (service.validate number job.project pass tags diagnostics) := by
  unfold validate
  split
  · rename_i hlate
    exact .superseded hpass (by rw [hstage]; exact Nat.lt_succ_self 2) hlate
  · rename_i hlive
    exact .validated hpass hstage (Bool.eq_false_iff.mpr hlive)

theorem progress_loadForMerge {origin : Origin} {batch : List Tag}
    {diagnostics : List Diagnostic} (hstage : job.stage = .queued origin batch diagnostics)
    (hturn : service.merges.isHeldBy job.project (.job number) = true) :
    Progress service number job (service.loadForMerge number job origin batch diagnostics) := by
  unfold loadForMerge
  split
  · rename_i hloads
    exact .loaded hstage hturn hloads
  · rename_i hfails
    exact .unloaded hstage hturn hfails

theorem progress_loadForAnnouncement {report : Option MergeReport}
    {diagnostics : List Diagnostic} (hstage : job.stage = .announcing report diagnostics)
    (hturn : service.announcements.isHeldBy job.project (.job number) = true) :
    Progress service number job
      (service.loadForAnnouncement number job report diagnostics) := by
  unfold loadForAnnouncement
  split
  · exact .unlisted hstage hturn
  · split
    · rename_i hloads
      exact .listed hstage hturn hloads
    · exact .unlisted hstage hturn

theorem progress_awaitRoom? {pass : Pass} (hpass : job.pass? = some pass)
    (hstage : job.stage = .reporting) (h : service.awaitRoom? number pass = some next) :
    Progress service number job next := by
  unfold awaitRoom? at h
  obtain ⟨session, hsession, h⟩ := Option.bind_eq_some_iff.mp h
  split at h
  · obtain ⟨outbox, houtbox, h⟩ := Option.bind_eq_some_iff.mp h
    obtain rfl := Option.some.inj h
    exact .admitted hpass hstage hsession houtbox
  · obtain rfl := Option.some.inj h
    exact .unheard hpass hstage

/-- **The step of a job** is one of these. -/
theorem progress_of_jobStep? (h : service.jobStep? number = some next) :
    ∃ job, service.jobs[number]? = some job ∧ Progress service number job next := by
  unfold jobStep? at h
  obtain ⟨job, hjob, h⟩ := Option.bind_eq_some_iff.mp h
  refine ⟨job, hjob, ?_⟩
  -- One case for each stage, and two for a merge, which has tags left or not.
  split at h
  · rename_i hstage
    obtain ⟨pass, hpass, h⟩ := Option.bind_eq_some_iff.mp h
    exact progress_of_awaitDelay? hpass hstage h
  · rename_i hstage
    obtain ⟨pass, hpass, h⟩ := Option.bind_eq_some_iff.mp h
    obtain rfl := Option.some.inj h
    exact progress_extract hpass hstage
  · rename_i hstage
    obtain ⟨pass, hpass, h⟩ := Option.bind_eq_some_iff.mp h
    obtain rfl := Option.some.inj h
    exact progress_validate hpass hstage
  · rename_i hstage
    simp only [Option.ite_none_right_eq_some] at h
    obtain ⟨hturn, h⟩ := h
    obtain rfl := Option.some.inj h
    exact progress_loadForMerge hstage hturn
  · rename_i hstage
    obtain rfl := Option.some.inj h
    exact .merged hstage
  · rename_i hstage
    obtain rfl := Option.some.inj h
    exact .finished hstage
  · rename_i hstage
    simp only [Option.ite_none_right_eq_some] at h
    obtain ⟨hturn, h⟩ := h
    obtain rfl := Option.some.inj h
    exact progress_loadForAnnouncement hstage hturn
  · rename_i hstage
    obtain rfl := Option.some.inj h
    exact .delivered hstage
  · rename_i hstage
    obtain ⟨pass, hpass, h⟩ := Option.bind_eq_some_iff.mp h
    exact progress_awaitRoom? hpass hstage h
  · cases h

end Service

end PlcTags
