import PlcTags.Service.Call

/-!
# Steps of the service

What happens to sessions leaves the database and the jobs alone (`SameWork`), and a step
of a job changes the stage of this job only.  The database changes with it just when the
job merges a tag.  `advanced_of_jobStep?` lists the ways in which a job goes on from stage
to stage, so that a property of its tags and of its problems can be followed along its
steps.  Where only what may still be stored matters, a step is a `Turn`.
-/

namespace PlcTags

open Live

namespace Live.Stage

/-- Nothing of the job is left to be stored. -/
def IsPast : Stage → Prop
  | .announcing .. | .delivering .. | .reporting | .ended _ => True
  | .delayed _ | .extracting | .validating .. | .queued .. | .merging .. => False

/-- The job announces its project, and has this to say when it is done. -/
def IsAnnouncing (report : Option MergeReport) (diagnostics : List Diagnostic)
    (stage : Stage) : Prop :=
  stage = .announcing report diagnostics ∨ ∃ tags, stage = .delivering report diagnostics tags

/-- The job has nothing to say any more, beside the summary of an import. -/
def IsOver : Stage → Prop
  | .reporting => True
  | .ended outcome => ∀ summary, outcome ≠ .imported (.ok summary)
  | .delayed _ | .extracting | .validating .. | .queued .. | .merging .. | .announcing .. |
    .delivering .. => False

theorem IsOver.isPast {stage : Stage} (h : stage.IsOver) : stage.IsPast := by
  cases stage with
  | reporting => trivial
  | ended outcome => trivial
  | _ => exact h.elim

end Live.Stage

namespace Service

variable {service middle next : Service} {number : Nat} {job : Job}

/-! ## Steps of one job -/

/-- The service after some steps of one job, if the job has as many. -/
def jobSteps? (service : Service) (number : Nat) : Nat → Option Service
  | 0 => some service
  | count + 1 => (service.jobStep? number).bind (·.jobSteps? number count)

theorem jobSteps?_succ {count : Nat} (h : service.jobStep? number = some next) :
    service.jobSteps? number (count + 1) = next.jobSteps? number count := by
  rw [jobSteps?, h, Option.bind_some]

theorem jobSteps?_add {first second : Nat} (h : service.jobSteps? number first = some next) :
    service.jobSteps? number (first + second) = next.jobSteps? number second := by
  induction first generalizing service with
  | zero =>
      obtain rfl := Option.some.inj h
      rw [Nat.zero_add]
  | succ first ih =>
      obtain ⟨middle, hstep, hsteps⟩ := Option.bind_eq_some_iff.mp h
      rw [Nat.add_right_comm, jobSteps?_succ hstep]
      exact ih hsteps

/-- A job keeps everything but its stage. -/
theorem getElem?_jobs_setStage (h : service.jobs[number]? = some job) (stage : Stage) :
    (service.setStage number stage).jobs[number]? = some { job with stage } := by
  unfold setStage
  rw [List.getElem?_modify_eq, h]
  rfl

/-- All other jobs stay as they are. -/
theorem mem_jobs_setStage {stage : Stage} (h : job ∈ (service.setStage number stage).jobs) :
    job ∈ service.jobs ∨ job.stage = stage := by
  obtain ⟨index, hindex⟩ := List.mem_iff_getElem?.mp h
  by_cases hnumber : number = index
  · subst hnumber
    unfold setStage at hindex
    rw [List.getElem?_modify_eq] at hindex
    obtain ⟨old, -, rfl⟩ := Option.map_eq_some_iff.mp hindex
    exact .inr rfl
  · unfold setStage at hindex
    rw [List.getElem?_modify_ne _ _ hnumber] at hindex
    exact .inl (List.mem_of_getElem? hindex)

/-! ## What leaves the work alone -/

/-- Two services have the same database and the same jobs. -/
structure SameWork (next service : Service) : Prop where
  jobs : next.jobs = service.jobs
  database : next.database = service.database

theorem SameWork.refl (service : Service) : service.SameWork service :=
  ⟨rfl, rfl⟩

theorem SameWork.trans (h : next.SameWork middle) (h' : middle.SameWork service) :
    next.SameWork service :=
  ⟨h.jobs.trans h'.jobs, h.database.trans h'.database⟩

theorem sameWork_updateSession (service : Service) (number : Nat) (change : Session → Session) :
    (service.updateSession number change).SameWork service :=
  ⟨rfl, rfl⟩

/-- A message that is sent to all subscribers changes nothing but sessions. -/
theorem exists_deliver_eq (service : Service) (project : Int) (message : ServerMessage) :
    ∃ sessions, service.deliver project message = { service with sessions } := by
  unfold deliver
  generalize service.registry.subscribers project = numbers
  induction numbers generalizing service with
  | nil => exact ⟨service.sessions, rfl⟩
  | cons number rest ih => exact ih _

theorem sameWork_deliver (service : Service) (project : Int) (message : ServerMessage) :
    (service.deliver project message).SameWork service := by
  obtain ⟨sessions, hdelivered⟩ := service.exists_deliver_eq project message
  rw [hdelivered]
  exact ⟨rfl, rfl⟩

theorem sameWork_checkCredential (service : Service) (number : Nat) (session : Session)
    (credential : Option String) :
    (service.checkCredential number session credential).SameWork service := by
  unfold checkCredential
  split <;> exact ⟨rfl, rfl⟩

theorem sameWork_loadForJoin (service : Service) (number : Nat) (project : Int) :
    (service.loadForJoin number project).SameWork service := by
  unfold loadForJoin
  split <;> exact ⟨rfl, rfl⟩

theorem sameWork_register (service : Service) (number : Nat) (session : Session) (project : Int)
    (tags : List StoredTag) :
    (service.register number session project tags).SameWork service := by
  unfold register
  dsimp only
  split <;> exact ⟨rfl, rfl⟩

theorem sameWork_greet? {session : Session} {project : Int}
    (h : service.greet? number session project = some next) : next.SameWork service := by
  unfold greet? at h
  split at h
  · obtain ⟨outbox, -, rfl⟩ := Option.map_eq_some_iff.mp h
    exact ⟨rfl, rfl⟩
  · obtain rfl := Option.some.inj h
    exact ⟨rfl, rfl⟩

/-- The steps of calls leave the work alone. -/
theorem sameWork_sessionStep? (h : service.sessionStep? number = some next) :
    next.SameWork service := by
  unfold sessionStep? at h
  obtain ⟨session, -, h⟩ := Option.bind_eq_some_iff.mp h
  obtain ⟨call, -, h⟩ := Option.bind_eq_some_iff.mp h
  cases call with
  | checking credential =>
      obtain rfl := Option.some.inj h
      exact service.sameWork_checkCredential number session credential
  | joining project =>
      simp only [Option.ite_none_right_eq_some] at h
      obtain rfl := Option.some.inj h.2
      exact service.sameWork_loadForJoin number project
  | registering project tags =>
      obtain rfl := Option.some.inj h
      exact service.sameWork_register number session project tags
  | greeting project => exact sameWork_greet? h

/-- A message that is taken comes out of the outbox of its session, and that is all. -/
theorem takeMessage?_eq_some_iff {taken : ServerMessage × Service} :
    service.takeMessage? number = some taken ↔
      ∃ session message outbox, service.sessions[number]? = some session ∧
        session.outbox.take? = some (message, outbox) ∧
        (message, service.setSession number { session with outbox }) = taken := by
  unfold takeMessage?
  constructor
  · intro htake
    obtain ⟨session, hsession, htake⟩ := Option.bind_eq_some_iff.mp htake
    obtain ⟨⟨message, outbox⟩, houtbox, htake⟩ := Option.bind_eq_some_iff.mp htake
    exact ⟨session, message, outbox, hsession, houtbox, Option.some.inj htake⟩
  · rintro ⟨session, message, outbox, hsession, houtbox, rfl⟩
    rw [hsession, Option.bind_eq_bind, Option.bind_some, houtbox]
    rfl

/-! ## The stages of a job -/

variable {stage : Stage} {diagnostics : List Diagnostic} {report : Option MergeReport}

/-- What came of an import whose merge has come to this report, after these problems. -/
def summaryOf (report : Option MergeReport) (diagnostics : List Diagnostic) : ImportSummary :=
  let report := report.getD {}
  ⟨report.inserted, report.updated, report.unchanged, diagnostics ++ report.errors⟩

/-- The stages that a step can lead a job to, and the database after it. -/
inductive Advance (service : Service) (job : Job) : Stage → Database → Prop where
  | due {moment : Nat} (hstage : job.stage = .delayed moment) (hdue : moment ≤ service.now) :
      Advance service job .extracting service.database
  | extracted {pass : Pass} (hstage : job.stage = .extracting) (hpass : job.pass? = some pass) :
      Advance service job
        (.validating (Source.extract pass.edit.vendor pass.edit.sourceText).tags
          (Source.extract pass.edit.vendor pass.edit.sourceText).tagDiagnostics)
        service.database
  | validated {pass : Pass} {tags : List Tag} {diagnostics : List Diagnostic}
      (hstage : job.stage = .validating tags diagnostics) (hpass : job.pass? = some pass) :
      Advance service job
        (.queued pass.edit.origin (acceptedTags tags) (diagnostics ++ batchIssues tags))
        service.database
  | loaded {origin : Origin} {batch : List Tag} {diagnostics : List Diagnostic}
      {stored : List StoredTag} (hstage : job.stage = .queued origin batch diagnostics)
      (hloads : service.database.list job.project = .ok stored) :
      Advance service job (.merging (.start job.project origin stored) batch diagnostics)
        service.database
  | merged {merge : Merge} {tag : Tag} {rest : List Tag} {diagnostics : List Diagnostic}
      (hstage : job.stage = .merging merge (tag :: rest) diagnostics) :
      Advance service job
        (.merging (merge.step service.supply.stamp service.database tag).1 rest diagnostics)
        (merge.step service.supply.stamp service.database tag).2
  | finished {merge : Merge} {diagnostics : List Diagnostic}
      (hstage : job.stage = .merging merge [] diagnostics) :
      Advance service job (.announcing (some merge.report) diagnostics) service.database
  | listed {report : Option MergeReport} {diagnostics : List Diagnostic} {tags : List StoredTag}
      (hstage : job.stage = .announcing report diagnostics) :
      Advance service job (.delivering report diagnostics tags) service.database
  | imported {vendor : Vendor} {report : Option MergeReport} {diagnostics : List Diagnostic}
      (hpurpose : job.purpose = .importing vendor)
      (hstage : job.stage.IsAnnouncing report diagnostics) :
      Advance service job (.ended (.imported (.ok (summaryOf report diagnostics))))
        service.database
  | ended {stage : Stage} (hover : stage.IsOver) : Advance service job stage service.database

/-- The job of this number has made a step. -/
def Advanced (service : Service) (number : Nat) (job : Job) (next : Service) : Prop :=
  ∃ stage, next.jobs = (service.setStage number stage).jobs ∧
    Advance service job stage next.database

theorem advanced_setStage (hsame : middle.SameWork service)
    (hadvance : Advance service job stage service.database) :
    service.Advanced number job (middle.setStage number stage) := by
  refine ⟨stage, ?_, ?_⟩
  · unfold setStage
    rw [hsame.jobs]
  · show Advance service job stage middle.database
    rw [hsame.database]
    exact hadvance

theorem advanced_over (hsame : middle.SameWork service) (hover : stage.IsOver) :
    service.Advanced number job (middle.setStage number stage) :=
  advanced_setStage hsame (.ended hover)

theorem isOver_ended {outcome : Outcome} (h : ∀ summary, outcome ≠ .imported (.ok summary)) :
    (Stage.ended outcome).IsOver := h

theorem advanced_tell (hsame : middle.SameWork service) (pass : Pass) (message : ServerMessage) :
    service.Advanced number job (middle.tell number pass message) := by
  unfold tell
  refine advanced_over ((middle.sameWork_updateSession pass.session _).trans hsame) ?_
  split
  · trivial
  · exact isOver_ended nofun

theorem advanced_awaitDelay? {pass : Pass} {due : Nat} (hstage : job.stage = .delayed due)
    (h : service.awaitDelay? number pass due = some next) :
    service.Advanced number job next := by
  unfold awaitDelay? at h
  split at h
  · obtain rfl := Option.some.inj h
    exact advanced_over (.refl service) (isOver_ended nofun)
  · simp only [Option.ite_none_right_eq_some] at h
    obtain rfl := Option.some.inj h.2
    exact advanced_setStage (.refl service) (.due hstage h.1)

theorem advanced_extract {pass : Pass} (hstage : job.stage = .extracting)
    (hpass : job.pass? = some pass) :
    service.Advanced number job (service.extract number pass) := by
  unfold extract
  dsimp only
  split
  · exact advanced_over (.refl service) (isOver_ended nofun)
  · exact advanced_setStage (.refl service) (.extracted hstage hpass)

theorem advanced_validate {tags : List Tag} {pass : Pass}
    (hstage : job.stage = .validating tags diagnostics) (hpass : job.pass? = some pass)
    (project : Int) :
    service.Advanced number job (service.validate number project pass tags diagnostics) := by
  unfold validate
  split
  · exact advanced_over (.refl service) (isOver_ended nofun)
  · exact advanced_setStage ⟨rfl, rfl⟩ (.validated hstage hpass)

theorem advanced_failMerge (hsame : middle.SameWork service) (failure : Failure) :
    service.Advanced number job (middle.failMerge number job failure) := by
  unfold failMerge
  split
  · exact advanced_tell hsame _ _
  · exact advanced_over hsame (isOver_ended nofun)
  · exact advanced_over hsame (isOver_ended nofun)
  · exact advanced_over hsame (isOver_ended nofun)

theorem advanced_loadForMerge {origin : Origin} {batch : List Tag}
    (hstage : job.stage = .queued origin batch diagnostics) :
    service.Advanced number job (service.loadForMerge number job origin batch diagnostics) := by
  unfold loadForMerge
  split
  · rename_i hloads
    exact advanced_setStage (.refl service) (.loaded hstage hloads)
  · refine advanced_failMerge ?_ _
    exact ⟨rfl, rfl⟩

theorem advanced_endMerge {merge : Merge} (hstage : job.stage = .merging merge [] diagnostics) :
    service.Advanced number job (service.endMerge number job merge.report diagnostics) := by
  unfold endMerge
  dsimp only
  split
  · exact advanced_setStage ⟨rfl, rfl⟩ (.finished hstage)
  · exact advanced_setStage ⟨rfl, rfl⟩ (.finished hstage)
  · exact advanced_over ⟨rfl, rfl⟩ (isOver_ended nofun)
  · exact advanced_over ⟨rfl, rfl⟩ (isOver_ended nofun)

theorem advanced_endAnnouncement (hsame : middle.SameWork service)
    (hstage : job.stage.IsAnnouncing report diagnostics) (result : Except Failure Nat) :
    service.Advanced number job
      (middle.endAnnouncement number job report diagnostics result) := by
  unfold endAnnouncement
  dsimp only
  split
  · exact advanced_tell ⟨hsame.jobs, hsame.database⟩ _ _
  · rename_i hpurpose
    exact advanced_setStage ⟨hsame.jobs, hsame.database⟩ (.imported hpurpose hstage)
  · exact advanced_over ⟨hsame.jobs, hsame.database⟩ (isOver_ended nofun)
  · exact advanced_over ⟨hsame.jobs, hsame.database⟩ (isOver_ended nofun)

theorem advanced_loadForAnnouncement (hstage : job.stage = .announcing report diagnostics) :
    service.Advanced number job
      (service.loadForAnnouncement number job report diagnostics) := by
  unfold loadForAnnouncement
  split
  · exact advanced_endAnnouncement (.refl service) (.inl hstage) _
  · split
    · exact advanced_setStage (.refl service) (.listed hstage)
    · exact advanced_endAnnouncement (.refl service) (.inl hstage) _

theorem advanced_awaitRoom? {pass : Pass} (h : service.awaitRoom? number pass = some next) :
    service.Advanced number job next := by
  unfold awaitRoom? at h
  obtain ⟨session, -, h⟩ := Option.bind_eq_some_iff.mp h
  split at h
  · obtain ⟨outbox, -, h⟩ := Option.bind_eq_some_iff.mp h
    obtain rfl := Option.some.inj h
    exact advanced_over ⟨rfl, rfl⟩ (isOver_ended nofun)
  · obtain rfl := Option.some.inj h
    exact advanced_over (.refl service) (isOver_ended nofun)

/-- **The step of a job** changes its stage only, in one of these ways. -/
theorem advanced_of_jobStep? (h : service.jobStep? number = some next) :
    ∃ job, service.jobs[number]? = some job ∧ service.Advanced number job next := by
  unfold jobStep? at h
  obtain ⟨job, hjob, h⟩ := Option.bind_eq_some_iff.mp h
  refine ⟨job, hjob, ?_⟩
  -- One case for each stage, and two for a merge, which has tags left or not.
  split at h
  · rename_i hstage
    obtain ⟨pass, -, h⟩ := Option.bind_eq_some_iff.mp h
    exact advanced_awaitDelay? hstage h
  · rename_i hstage
    obtain ⟨pass, hpass, h⟩ := Option.bind_eq_some_iff.mp h
    obtain rfl := Option.some.inj h
    exact advanced_extract hstage hpass
  · rename_i hstage
    obtain ⟨pass, hpass, h⟩ := Option.bind_eq_some_iff.mp h
    obtain rfl := Option.some.inj h
    exact advanced_validate hstage hpass job.project
  · rename_i hstage
    simp only [Option.ite_none_right_eq_some] at h
    obtain rfl := Option.some.inj h.2
    exact advanced_loadForMerge hstage
  · rename_i hstage
    obtain rfl := Option.some.inj h
    exact ⟨_, rfl, .merged hstage⟩
  · rename_i hstage
    obtain rfl := Option.some.inj h
    exact advanced_endMerge hstage
  · rename_i hstage
    simp only [Option.ite_none_right_eq_some] at h
    obtain rfl := Option.some.inj h.2
    exact advanced_loadForAnnouncement hstage
  · rename_i hstage
    obtain rfl := Option.some.inj h
    exact advanced_endAnnouncement (service.sameWork_deliver job.project _) (.inr ⟨_, hstage⟩) _
  · obtain ⟨pass, -, h⟩ := Option.bind_eq_some_iff.mp h
    exact advanced_awaitRoom? h
  · cases h

/-- An announcement does not change the database. -/
theorem Advance.database_of_isAnnouncing {database : Database}
    (h : Advance service job stage database)
    (hstage : job.stage.IsAnnouncing report diagnostics) : database = service.database := by
  cases h with
  | merged hmerging =>
      rcases hstage with hstage | ⟨tags, hstage⟩
      · cases hmerging.symm.trans hstage
      · cases hmerging.symm.trans hstage
  | _ => rfl

/-! ## The tags of a job -/

/-- What a step makes of the tags of a job that have not been stored. -/
inductive Turn (service : Service) (job : Job) : Stage → Database → Prop where
  | due {moment : Nat} (hstage : job.stage = .delayed moment) (hdue : moment ≤ service.now) :
      Turn service job .extracting service.database
  | extracted {pass : Pass} (hstage : job.stage = .extracting) (hpass : job.pass? = some pass) :
      Turn service job
        (.validating (Source.extract pass.edit.vendor pass.edit.sourceText).tags
          (Source.extract pass.edit.vendor pass.edit.sourceText).tagDiagnostics)
        service.database
  | validated {pass : Pass} {tags : List Tag} {diagnostics : List Diagnostic}
      (hstage : job.stage = .validating tags diagnostics) (hpass : job.pass? = some pass) :
      Turn service job
        (.queued pass.edit.origin (acceptedTags tags) (diagnostics ++ batchIssues tags))
        service.database
  | loaded {origin : Origin} {batch : List Tag} {diagnostics : List Diagnostic}
      {stored : List StoredTag} (hstage : job.stage = .queued origin batch diagnostics)
      (hloads : service.database.list job.project = .ok stored) :
      Turn service job (.merging (.start job.project origin stored) batch diagnostics)
        service.database
  | merged {merge : Merge} {tag : Tag} {rest : List Tag} {diagnostics : List Diagnostic}
      (hstage : job.stage = .merging merge (tag :: rest) diagnostics) :
      Turn service job
        (.merging (merge.step service.supply.stamp service.database tag).1 rest diagnostics)
        (merge.step service.supply.stamp service.database tag).2
  | past {stage : Stage} (hpast : stage.IsPast) : Turn service job stage service.database

/-- The job of this number has made a step. -/
def Turned (service : Service) (number : Nat) (job : Job) (next : Service) : Prop :=
  ∃ stage, next.jobs = (service.setStage number stage).jobs ∧
    Turn service job stage next.database

theorem Advance.turn {database : Database} (h : Advance service job stage database) :
    Turn service job stage database := by
  cases h with
  | due hstage hdue => exact .due hstage hdue
  | extracted hstage hpass => exact .extracted hstage hpass
  | validated hstage hpass => exact .validated hstage hpass
  | loaded hstage hloads => exact .loaded hstage hloads
  | merged hstage => exact .merged hstage
  | finished => exact .past trivial
  | listed => exact .past trivial
  | imported => exact .past trivial
  | ended hover => exact .past hover.isPast

theorem turned_of_jobStep? (h : service.jobStep? number = some next) :
    ∃ job, service.jobs[number]? = some job ∧ service.Turned number job next := by
  obtain ⟨job, hjob, stage, hjobs, hadvance⟩ := advanced_of_jobStep? h
  exact ⟨job, hjob, stage, hjobs, hadvance.turn⟩

end Service

end PlcTags
