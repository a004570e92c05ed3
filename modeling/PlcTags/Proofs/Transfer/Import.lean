import PlcTags.Proofs.Container.Codec
import PlcTags.Proofs.Service.Lines
import PlcTags.Proofs.Service.Merge
import PlcTags.Transfer.Import

/-!
# An import by itself

An import whose project nobody else is in line for goes from its first step to its
summary without waiting for anybody: it merges its batch, as a run of the merge does, and
then announces the project.  Whatever comes of the announcement, the summary is that of
the merge, and the database is the one that the merge has left (`importsTo_alone`).  For a
container that was written from tags, the batch is what is carried of them
(`importsTo_encode`).
-/

namespace PlcTags

open Live

/-! ## Free lines -/

/-- Who gets in line for a project that nobody is in line for holds its lock. -/
theorem Live.Locks.isHeldBy_ask {locks : Locks} {project : Int}
    (h : locks.holder? project = none) (party : Party) :
    (locks.ask project party).isHeldBy project party = true := by
  have hholder : (locks.ask project party).holder? project = some party := by
    unfold holder? ask at *
    rw [List.lookup_append, h, Option.none_or, List.lookup_cons_self]
  rw [isHeldBy, hholder, beq_self_eq_true]

namespace Service

/-- Nobody is in line for a project. -/
structure IsFree (service : Service) (project : Int) : Prop where
  merges : service.merges.holder? project = none
  announcements : service.announcements.holder? project = none

variable {service next : Service} {number : Nat} {job : Job} {run : MergeRun} {tag : Tag}
  {rest : List Tag} {diagnostics : List Diagnostic} {report : Option MergeReport}
  {vendor : Vendor} {summary : ImportSummary} {database : Database}

/-! ## Steps up to a summary -/

/-- The steps of an import lead to this summary, and leave this database. -/
def EndsWith (service : Service) (number : Nat) (summary : ImportSummary)
    (database : Database) : Prop :=
  ∃ count after, service.jobSteps? number count = some after ∧
    after.jobs[number]?.bind Job.outcome? = some (.imported (.ok summary)) ∧
    after.database = database

theorem EndsWith.of_steps {count : Nat} (h : next.EndsWith number summary database)
    (hsteps : service.jobSteps? number count = some next) :
    service.EndsWith number summary database := by
  obtain ⟨more, after, hmore, houtcome, hdatabase⟩ := h
  exact ⟨count + more, after, (jobSteps?_add hsteps).trans hmore, houtcome, hdatabase⟩

theorem EndsWith.of_step (h : next.EndsWith number summary database)
    (hstep : service.jobStep? number = some next) :
    service.EndsWith number summary database :=
  h.of_steps (jobSteps?_succ hstep : service.jobSteps? number 1 = some next)

/-! ## From the merge to the announcement -/

theorem announcements_of_queued {origin : Origin} {batch : List Tag} {stored : List StoredTag}
    (hjob : service.jobs[number]? = some job)
    (hstage : job.stage = .queued origin batch diagnostics)
    (hturn : service.merges.isHeldBy job.project (.job number) = true)
    (hloads : service.database.list job.project = .ok stored)
    (hstep : service.jobStep? number = some next) :
    next.announcements = service.announcements := by
  rw [jobStep?, hjob] at hstep
  simp only [Option.bind_eq_bind, Option.bind_some, hstage, hturn, if_true, loadForMerge,
    hloads] at hstep
  obtain rfl := Option.some.inj hstep
  rfl

theorem announcements_take (h : service.IsMerging number job run (tag :: rest) diagnostics)
    (hstep : service.jobStep? number = some next) :
    next.announcements = service.announcements := by
  rw [jobStep?, h.job] at hstep
  obtain rfl := Option.some.inj hstep
  rfl

/-- No step of a merge makes anybody get in line. -/
theorem announcements_takeAll (h : service.IsMerging number job run rest diagnostics)
    (hsteps : service.jobSteps? number rest.length = some next) :
    next.announcements = service.announcements := by
  induction rest generalizing service run with
  | nil =>
      obtain rfl := Option.some.inj hsteps
      rfl
  | cons tag rest ih =>
      obtain ⟨middle, hstep, hmiddle⟩ := isMerging_take h
      rw [List.length_cons, jobSteps?_succ hstep] at hsteps
      rw [ih hmiddle hsteps, announcements_take h hstep]

/-- The merge of an import is followed by its announcement, at once if the line is free. -/
theorem announcing_of_isMerging (h : service.IsMerging number job run [] diagnostics)
    (hpurpose : job.purpose = .importing vendor)
    (hfree : service.announcements.holder? job.project = none) :
    ∃ next, service.jobStep? number = some next ∧
      next.jobs[number]? =
        some (job.withStage (.announcing (some run.merge.report) diagnostics)) ∧
      next.announcements.isHeldBy job.project (.job number) = true ∧
      next.database = run.database := by
  have hstep : service.jobStep? number = some (service.endMerge number
      (job.withStage (.merging run.merge [] diagnostics)) run.merge.report diagnostics) := by
    rw [jobStep?, h.job]
    rfl
  have hend : service.endMerge number (job.withStage (.merging run.merge [] diagnostics))
      run.merge.report diagnostics =
        { service with
          merges := service.merges.release job.project (.job number) }.queueAnnouncement number
            job.project (some run.merge.report) diagnostics := by
    simp only [endMerge, Job.withStage, hpurpose]
  rw [hend] at hstep
  refine ⟨_, hstep, ?_, Locks.isHeldBy_ask hfree _, h.database⟩
  exact getElem?_jobs_setStage h.job _

/-! ## From the announcement to the summary -/

/-- An import ends with its summary, whatever came of the announcement. -/
theorem endsWith_of_endAnnouncement {result : Except Failure Nat} {first : Job}
    (hstep : service.jobStep? number =
      some (next.endAnnouncement number job report diagnostics result))
    (hjob : next.jobs[number]? = some first) (hpurpose : job.purpose = .importing vendor) :
    service.EndsWith number (summaryOf report diagnostics) next.database := by
  refine ⟨1, _, jobSteps?_succ hstep, ?_, ?_⟩
  · simp only [endAnnouncement, hpurpose]
    refine (congrArg (·.bind Job.outcome?) (getElem?_jobs_setStage hjob _)).trans ?_
    rfl
  · simp only [endAnnouncement, hpurpose]
    rfl

theorem endsWith_of_delivering {tags : List StoredTag}
    (hjob : service.jobs[number]? = some job)
    (hstage : job.stage = .delivering report diagnostics tags)
    (hpurpose : job.purpose = .importing vendor) :
    service.EndsWith number (summaryOf report diagnostics) service.database := by
  have hsame := service.sameWork_deliver job.project (.tagsUpdated job.project tags)
  have hstep : service.jobStep? number =
      some (service.announce number job report diagnostics tags) := by
    rw [jobStep?, hjob]
    simp only [Option.bind_eq_bind, Option.bind_some, hstage]
    rfl
  have hdelivered : (service.deliver job.project (.tagsUpdated job.project tags)).jobs[number]? =
      some job := by
    rw [hsame.jobs, hjob]
  rw [← hsame.database]
  exact endsWith_of_endAnnouncement hstep hdelivered hpurpose

/-- The steps of an import whose turn it is to announce. -/
theorem endsWith_of_announcing (hjob : service.jobs[number]? = some job)
    (hstage : job.stage = .announcing report diagnostics)
    (hpurpose : job.purpose = .importing vendor)
    (hturn : service.announcements.isHeldBy job.project (.job number) = true) :
    service.EndsWith number (summaryOf report diagnostics) service.database := by
  have hstep : service.jobStep? number =
      some (service.loadForAnnouncement number job report diagnostics) := by
    rw [jobStep?, hjob]
    simp only [Option.bind_eq_bind, Option.bind_some, hstage, hturn, if_true]
    rfl
  -- Without subscribers, or without tags to tell them, the announcement is over at once.
  unfold loadForAnnouncement at hstep
  split at hstep
  · exact endsWith_of_endAnnouncement hstep hjob hpurpose
  · split at hstep
    · refine EndsWith.of_step ?_ hstep
      exact endsWith_of_delivering (getElem?_jobs_setStage hjob _) rfl hpurpose
    · exact endsWith_of_endAnnouncement hstep hjob hpurpose

/-! ## The whole import -/

/-- The import of a container into a project ends with this summary if nobody else makes a
step, and leaves this database. -/
def ImportsTo (service : Service) (project : Int) (vendor : Vendor)
    (format : Option Container.Format) (bytes : ByteArray) (summary : ImportSummary)
    (database : Database) : Prop :=
  ∃ started, service.importContainer project vendor format bytes = .ok started ∧
    started.EndsWith service.jobs.length summary database

/-- The merge of a batch of a container into a project with these tags. -/
def importRun (service : Service) (project : Int) (stored : List StoredTag)
    (batch : List Tag) : MergeRun :=
  MergeRun.takeAll ⟨.start project .container stored, service.database, service.supply⟩ batch

variable {project : Int} {format : Option Container.Format} {bytes : ByteArray}
  {content : Container.Decoded} {stored : List StoredTag}

/-- **An import by itself** comes to the summary of its merge. -/
theorem importsTo_alone (hfree : service.IsFree project)
    (hlisted : service.database.list project = .ok stored)
    (hdecode : Container.decode vendor (format.getD (Container.Format.sniff bytes)) bytes =
      .ok content) :
    service.ImportsTo project vendor format bytes
      (summaryOf (some (service.importRun project stored (acceptedTags content.tags)).merge.report)
        (content.issues ++ batchIssues content.tags))
      (service.importRun project stored (acceptedTags content.tags)).database := by
  let batch := acceptedTags content.tags
  let problems := content.issues ++ batchIssues content.tags
  let job : Job :=
    { project, purpose := .importing vendor, stage := .queued .container batch problems }
  let started := service.importTags project vendor content.tags content.issues
  have hstart : service.importContainer project vendor format bytes = .ok started := by
    rw [importContainer, hdecode]
  have hjob : started.jobs[service.jobs.length]? = some job := List.getElem?_concat_length
  have hheld : started.merges.isHeldBy project (.job service.jobs.length) = true :=
    Locks.isHeldBy_ask hfree.merges _
  -- Nobody is in line, so the merge begins, takes all tags, and is announced at once.
  obtain ⟨first, hfirst, hmerging⟩ := isMerging_of_queued hjob rfl hheld hlisted
  obtain ⟨merged, hsteps, hmerged⟩ := isMerging_jobSteps? hmerging
  have hline : merged.announcements.holder? project = none := by
    rw [announcements_takeAll hmerging hsteps,
      announcements_of_queued hjob rfl hheld hlisted hfirst]
    exact hfree.announcements
  obtain ⟨announcing, hend, hannouncing, hturn, hdatabase⟩ :=
    announcing_of_isMerging hmerged rfl hline
  have hlast := endsWith_of_announcing hannouncing rfl rfl hturn
  rw [hdatabase] at hlast
  exact ⟨started, hstart, ((hlast.of_step hend).of_steps hsteps).of_step hfirst⟩

/-- What an import comes to that is given a container of tags that can be written. -/
theorem importsTo_encode {tags : List Tag} {hint : Option Container.Format}
    {format : Container.Format} (hfree : service.IsFree project)
    (hlisted : service.database.list project = .ok stored)
    (htags : ∀ tag ∈ tags, tag.Expressible vendor) (date : String)
    (hhint : hint = none ∨ hint = some format) :
    service.ImportsTo project vendor hint (Container.encode date vendor format tags).toUTF8
      (summaryOf
        (some (service.importRun project stored (acceptedTags (tags.map Tag.carried))).merge.report)
        (batchIssues (tags.map Tag.carried)))
      (service.importRun project stored (acceptedTags (tags.map Tag.carried))).database :=
  importsTo_alone hfree hlisted (Container.decode_encode_hinted date hhint htags)

end Service

end PlcTags
