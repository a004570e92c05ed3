import PlcTags.Proofs.Service.Reachable
import PlcTags.Proofs.Store.Account

/-!
# Jobs that nobody disturbs

A job shares the service with all others, but may be the only one that writes to its
project for a while (`Undisturbed`).  In between anything else can happen: sessions come
and go, other projects are merged, and the database refuses now these accesses and now
those.  Every transition but a restart is either a step of the job or leaves it as it is
(`Undisturbed.transition`).

What such a job brings to its project is fixed before the merge: a batch of tags, and the
problems of those that are not in it.  From then on each tag of the batch is accounted
for at every stage (`Job.Accounts`), by its row or by the problems, and so it is at the
end of all steps (`Undisturbed.accounts`).
-/

namespace PlcTags

open Live

namespace Live.Job

/-- The tags of a job come to this batch, and the problems of all others to these; what
has been merged of the batch is accounted for. -/
def Accounts (batch : List Tag) (problems : List Diagnostic) (store : Store) (job : Job) : Prop :=
  match job.stage with
  | .delayed _ | .extracting =>
    ∀ pass, job.pass? = some pass →
      let extraction := Source.extract pass.edit.vendor pass.edit.sourceText
      acceptedTags extraction.tags = batch ∧
        extraction.tagDiagnostics ++ batchIssues extraction.tags = problems
  | .validating tags diagnostics =>
    acceptedTags tags = batch ∧ diagnostics ++ batchIssues tags = problems
  | .queued _ rest diagnostics => rest = batch ∧ diagnostics = problems
  | .merging merge rest diagnostics =>
    merge.project = job.project ∧ diagnostics = problems ∧
      ∃ done, done ++ rest = batch ∧ merge.Accounts store done
  | .announcing report diagnostics | .delivering report diagnostics _ =>
    diagnostics = problems ∧ store.Settles job.project batch (report.getD {}).errors
  | .ended (.imported (.ok summary)) =>
    problems ⊆ summary.errors ∧ store.Settles job.project batch summary.errors
  | .reporting | .ended _ => True

variable {batch : List Tag} {problems : List Diagnostic} {store other : Store} {job : Job}
  {stage : Stage}

/-- Only the rows of the project matter. -/
theorem Accounts.congr (h : job.Accounts batch problems store)
    (hrows : other.projectRows job.project = store.projectRows job.project) :
    job.Accounts batch problems other := by
  unfold Accounts at h ⊢
  split at h
  · exact h
  · exact h
  · exact h
  · exact h
  · obtain ⟨hproject, hproblems, done, hbatch, haccounts⟩ := h
    refine ⟨hproject, hproblems, done, hbatch, haccounts.congr ?_⟩
    rw [hproject, hrows]
  · exact ⟨h.1, h.2.congr hrows⟩
  · exact ⟨h.1, h.2.congr hrows⟩
  · exact ⟨h.1, h.2.congr hrows⟩
  · trivial
  · trivial

/-- When the announcement is under way, the whole batch is accounted for. -/
theorem Accounts.of_isAnnouncing {report : Option MergeReport} {found : List Diagnostic}
    (h : job.Accounts batch problems store) (hstage : job.stage.IsAnnouncing report found) :
    found = problems ∧ store.Settles job.project batch (report.getD {}).errors := by
  rcases hstage with hstage | ⟨tags, hstage⟩
  · rw [Accounts, hstage] at h
    exact h
  · rw [Accounts, hstage] at h
    exact h

theorem accounts_of_isOver (h : stage.IsOver) :
    ({ job with stage } : Job).Accounts batch problems store := by
  cases stage with
  | reporting => trivial
  | ended outcome =>
      cases outcome with
      | imported result =>
          cases result with
          | ok summary => exact absurd rfl (h summary)
          | error failure => trivial
      | _ => trivial
  | _ => exact h.elim

end Live.Job

namespace Service

variable {service middle next after : Service} {number : Nat} {project : Int} {job : Job}
  {batch : List Tag} {problems : List Diagnostic}

/-! ## Steps of the job -/

/-- One step of a job keeps the account. -/
theorem accounts_of_advance {stage : Stage} {database : Database}
    (h : job.Accounts batch problems service.database.store)
    (hadvance : Advance service job stage database) :
    ({ job with stage } : Job).Accounts batch problems database.store := by
  cases hadvance with
  | due hstage hdue =>
      rw [Job.Accounts, hstage] at h
      exact h
  | extracted hstage hpass =>
      rw [Job.Accounts, hstage] at h
      exact h _ hpass
  | validated hstage hpass =>
      rw [Job.Accounts, hstage] at h
      exact h
  | loaded hstage hloads =>
      rw [Job.Accounts, hstage] at h
      obtain ⟨rfl, rfl⟩ := h
      exact ⟨rfl, rfl, [], rfl, Merge.accounts_start (Database.list_eq_ok hloads) _⟩
  | @merged merge tag rest diagnostics hstage =>
      rw [Job.Accounts, hstage] at h
      obtain ⟨hproject, hproblems, done, hbatch, haccounts⟩ := h
      refine ⟨?_, hproblems, done ++ [tag], ?_, haccounts.step _ tag⟩
      · exact (merge.step_frame _ _ tag).1.trans hproject
      · rw [List.append_assoc]
        exact hbatch
  | finished hstage =>
      rw [Job.Accounts, hstage] at h
      obtain ⟨hproject, hproblems, done, hbatch, haccounts⟩ := h
      -- The merge is over, so it has taken the whole batch.
      rw [List.append_nil] at hbatch
      subst hbatch
      have hsettles := haccounts.settles
      rw [hproject] at hsettles
      exact ⟨hproblems, hsettles⟩
  | listed hstage =>
      rw [Job.Accounts, hstage] at h
      exact h
  | @imported vendor report diagnostics hpurpose hstage =>
      obtain ⟨rfl, hsettles⟩ := h.of_isAnnouncing hstage
      exact ⟨List.subset_append_left _ _, hsettles.mono (List.subset_append_right _ _)⟩
  | ended hover => exact Job.accounts_of_isOver hover

/-! ## Everybody's steps -/

/-- A job goes on from a service to another, and nobody else changes the job or the rows of
this project. -/
inductive Undisturbed (number : Nat) (project : Int) (service : Service) : Service → Prop where
  | refl : Undisturbed number project service service
  /-- The job makes a step. -/
  | own {middle next : Service} (h : Undisturbed number project service middle)
      (hstep : middle.jobStep? number = some next) : Undisturbed number project service next
  /-- Others do something. -/
  | others {middle next : Service} (h : Undisturbed number project service middle)
      (hjob : next.jobs[number]? = middle.jobs[number]?)
      (hrows : next.database.store.projectRows project =
        middle.database.store.projectRows project) :
      Undisturbed number project service next

theorem Undisturbed.jobSteps? {count : Nat} (h : Undisturbed number project service middle)
    (hsteps : middle.jobSteps? number count = some next) :
    Undisturbed number project service next := by
  induction count generalizing middle with
  | zero =>
      obtain rfl := Option.some.inj hsteps
      exact h
  | succ count ih =>
      obtain ⟨second, hstep, hrest⟩ := Option.bind_eq_some_iff.mp hsteps
      exact ih (h.own hstep) hrest

/-- The steps of other jobs leave a job as it is. -/
theorem getElem?_jobs_of_jobStep? {other : Nat} (hstep : service.jobStep? other = some next)
    (hother : other ≠ number) : next.jobs[number]? = service.jobs[number]? := by
  obtain ⟨-, -, stage, hjobs, -⟩ := advanced_of_jobStep? hstep
  rw [hjobs]
  exact List.getElem?_modify_ne _ _ hother

/-- What happens in the service is a step of the job, or leaves the job as it is. -/
theorem getElem?_jobs_of_transition (hnext : service.Transition next)
    (hnumber : number < service.jobs.length) (hrestart : service.restart? ≠ some next) :
    service.jobStep? number = some next ∨ next.jobs[number]? = service.jobs[number]? := by
  have hadded : ∀ {other : Service} {added : Job}, other.jobs = service.jobs ++ [added] →
      other.jobs[number]? = service.jobs[number]? := by
    intro other added hjobs
    rw [hjobs, List.getElem?_append_left hnumber]
  have hsame : ∀ {other : Service}, other.SameWork service →
      other.jobs[number]? = service.jobs[number]? := by
    intro other hwork
    rw [hwork.jobs]
  -- Sessions and calls leave the jobs alone, or add one behind them.
  cases hnext with
  | step party hstep =>
      cases party with
      | session other => exact .inr (hsame (sameWork_sessionStep? hstep))
      | job other =>
          by_cases hother : other = number
          · exact .inl (hother ▸ hstep)
          · exact .inr (getElem?_jobs_of_jobStep? hstep hother)
  | openSession capacity hopen =>
      obtain ⟨outbox, -, rfl⟩ := Option.map_eq_some_iff.mp hopen
      exact .inr rfl
  | authenticate other credential =>
      exact .inr (hsame (sameWork_withIdle fun session => service.sameWork_beginCheck _ session _))
  | handle other message =>
      rcases service.handle_work other message with hwork | ⟨⟨added, due, hjobs, -⟩, -⟩
      · exact .inr (hsame hwork)
      · exact .inr (hadded hjobs)
  | close other => exact .inr (hsame (service.sameWork_close other))
  | drop other => exact .inr (hsame (service.sameWork_drop other))
  | takeMessage other htake => exact .inr (hsame (sameWork_takeMessage? htake))
  | hangUp other => exact .inr rfl
  | post other message => exact .inr rfl
  | importContainer project vendor format bytes himport =>
      unfold importContainer at himport
      split at himport
      · obtain rfl := Except.ok.inj himport
        exact .inr (hadded rfl)
      · cases himport
  | startAnnouncement project => exact .inr (hadded rfl)
  | setClock now => exact .inr rfl
  | listen events => exact .inr rfl
  | access database hstore => exact .inr rfl
  | restart h => exact absurd h hrestart

/-- A job stays undisturbed through whatever happens in the service, as long as nobody
else writes to the project. -/
theorem Undisturbed.transition (h : Undisturbed number project service middle)
    (hnext : middle.Transition next) (hnumber : number < middle.jobs.length)
    (hrestart : middle.restart? ≠ some next)
    (hrows : next.database.store.projectRows project =
      middle.database.store.projectRows project) :
    Undisturbed number project service next := by
  rcases getElem?_jobs_of_transition hnext hnumber hrestart with hstep | hjob
  · exact h.own hstep
  · exact h.others hjob hrows

/-- **The account of a job is kept** as long as nobody disturbs it. -/
theorem Undisturbed.accounts (h : Undisturbed number job.project service after)
    (hjob : service.jobs[number]? = some job)
    (haccounts : job.Accounts batch problems service.database.store) :
    ∃ stage, after.jobs[number]? = some { job with stage } ∧
      ({ job with stage } : Job).Accounts batch problems after.database.store := by
  induction h with
  | refl => exact ⟨job.stage, hjob, haccounts⟩
  | own _ hstep ih =>
      obtain ⟨stage, hmiddle, haccounts⟩ := ih
      obtain ⟨same, hsame, later, hjobs, hadvance⟩ := advanced_of_jobStep? hstep
      obtain rfl := Option.some.inj (hmiddle.symm.trans hsame)
      have hlater := accounts_of_advance haccounts hadvance
      refine ⟨later, ?_, hlater⟩
      rw [hjobs]
      exact getElem?_jobs_setStage hmiddle later
  | others _ hkept hrows ih =>
      obtain ⟨stage, hmiddle, haccounts⟩ := ih
      exact ⟨stage, hkept.trans hmiddle, haccounts.congr hrows⟩

end Service

end PlcTags
