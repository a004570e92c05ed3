import PlcTags.Proofs.Service.History
import PlcTags.Proofs.Service.Tally

/-!
# How passes end

The steps of a pass are listed with what they say (`PassGo`).  Only the last step of a pass
says anything: it puts a message with the number of the pass into the outbox of its session,
if it is still open, and if the pass has merged it emits an event.  The steps of all other
jobs end no pass (`hushed_of_progress`).
-/

namespace PlcTags

open Live

/-- A pass at this stage has said how it went. -/
def Live.Stage.IsSaid (stage : Stage) : Prop :=
  stage = .reporting ∨ stage = .ended .told

namespace Service

variable {service middle next : Service} {number index sync : Nat} {job : Job} {pass : Pass}
  {message : ServerMessage}

/-! ## How passes end -/

/-- A message that ends a pass may have come to its session, and no other one. -/
def Ends (service : Service) (pass : Pass) (next : Service) : Prop :=
  ∀ sync index, next.tally sync index ≤
    service.tally sync index + if sync = pass.sync ∧ index = pass.session then 1 else 0

theorem Ends.of_quieter (h : Quieter service middle) (h' : middle.Ends pass next) :
    service.Ends pass next :=
  fun sync index => Nat.le_trans (h' sync index) (Nat.add_le_add_right (h sync index) _)

theorem ends_tell (service : Service) (number : Nat) (pass : Pass) {message : ServerMessage}
    (hmessage : ∀ sync, isEnding sync message = true ↔ sync = pass.sync) :
    service.Ends pass (service.tell number pass message) := by
  intro sync index
  have hsent : ∀ (sync : Nat) (session : Session),
      (session.outbox.send (.job number) message).messages.countP (isEnding sync) ≤
        session.outbox.messages.countP (isEnding sync) + if isEnding sync message then 1 else 0 :=
    fun sync session => Outbox.countP_send_le (isEnding sync) session.outbox _ message
  refine Nat.le_trans (tally_updateSession_le hsent sync index) (Nat.add_le_add_left ?_ _)
  by_cases hown : sync = pass.sync ∧ index = pass.session
  · rw [if_pos hown, if_pos hown.2]
    split
    · exact Nat.le_refl 1
    · exact Nat.zero_le 1
  · rw [if_neg hown]
    split
    · rename_i hindex
      exact Nat.le_of_eq (if_neg fun hends => hown ⟨(hmessage sync).mp hends, hindex⟩)
    · exact Nat.le_refl 0

theorem leads_isSaid_tell (service : Service) (number : Nat) (pass : Pass)
    (message : ServerMessage) : ∃ stage : Stage, stage.IsSaid ∧
      (service.tell number pass message).jobs = (service.setStage number stage).jobs := by
  unfold tell
  refine ⟨_, ?_, rfl⟩
  split
  · exact .inl rfl
  · exact .inr rfl

/-- What is made known of an edit that was merged. -/
def mergedEvent (project : Int) (report : MergeReport) (time : Instant) : TagEvent :=
  .reconciled project report.inserted report.updated report.errors.length time

/-- Nothing is said. -/
structure Still (service next : Service) : Prop where
  quieter : Quieter service next
  events : next.events = service.events

theorem still_of_sessions (hsessions : next.sessions = service.sessions)
    (hevents : next.events = service.events) : Still service next :=
  ⟨quieter_of_outboxes (congrArg (List.map Session.outbox) hsessions), hevents⟩

/-- What a step of a pass leads to, and what it says. -/
inductive PassGo (service : Service) (job : Job) (pass : Pass) : Stage → Service → Prop where
  | goes {stage : Stage} {next : Service} (hrank : stage.rank < 5) (hstill : Still service next) :
      PassGo service job pass stage next
  | superseded {next : Service} (hrank : job.stage.rank < 3) (hstill : Still service next) :
      PassGo service job pass (.ended .superseded) next
  | merged {report : MergeReport} {diagnostics : List Diagnostic} {next : Service}
      (hrank : job.stage.rank = 4) (hstill : Still service next) :
      PassGo service job pass (.announcing (some report) diagnostics) next
  | listed {report : Option MergeReport} {diagnostics : List Diagnostic} {tags : List StoredTag}
      {next : Service} (hstage : job.stage = .announcing report diagnostics)
      (hstill : Still service next) :
      PassGo service job pass (.delivering report diagnostics tags) next
  | fails {stage : Stage} {next : Service} (hrank : job.stage.rank = 3) (hsaid : stage.IsSaid)
      (hends : service.Ends pass next) (hevents : next.events = service.events) :
      PassGo service job pass stage next
  | completes {report : Option MergeReport} {diagnostics : List Diagnostic} {stage : Stage}
      {next : Service} (hstage : job.stage.IsAnnouncing report diagnostics) (hsaid : stage.IsSaid)
      (hends : service.Ends pass next)
      (hevents : next.events = service.events.emit
        (mergedEvent job.project (report.getD {}) service.supply.stamp.time)) :
      PassGo service job pass stage next
  | rests {next : Service} (hstage : job.stage = .reporting) (hstill : Still service next) :
      PassGo service job pass (.ended .told) next

theorem deliver_silent (service : Service) (project : Int) (message : ServerMessage) :
    (service.deliver project message).events = service.events ∧
      (service.deliver project message).supply = service.supply := by
  obtain ⟨sessions, hdelivered⟩ := service.exists_deliver_eq project message
  rw [hdelivered]
  exact ⟨rfl, rfl⟩

/-- The end of an announcement ends its pass, and tells of it. -/
theorem completes_endAnnouncement {report : Option MergeReport} {diagnostics : List Diagnostic}
    (hpurpose : job.purpose = .sync pass) (hstage : job.stage.IsAnnouncing report diagnostics)
    (hquieter : Quieter service middle) (hevents : middle.events = service.events)
    (hsupply : middle.supply = service.supply) (result : Except Failure Nat) :
    ∃ stage, (middle.endAnnouncement number job report diagnostics result).jobs =
        (middle.setStage number stage).jobs ∧
      PassGo service job pass stage
        (middle.endAnnouncement number job report diagnostics result) := by
  unfold endAnnouncement
  rw [hpurpose]
  dsimp only
  obtain ⟨stage, hsaid, hjobs⟩ := leads_isSaid_tell
    ({ middle with
        announcements := middle.announcements.release job.project (.job number) }.emit
      (.reconciled job.project (report.getD {}).inserted (report.getD {}).updated
        (report.getD {}).errors.length)) number pass
    (.syncComplete pass.sync job.project (report.getD {}).inserted (report.getD {}).updated
      (report.getD {}).unchanged (diagnostics ++ (report.getD {}).errors))
  refine ⟨stage, hjobs, .completes hstage hsaid ?_ ?_⟩
  · refine Ends.of_quieter hquieter (Ends.of_quieter ?_ (ends_tell _ number pass ?_))
    · exact quieter_of_outboxes rfl
    · intro sync
      exact beq_iff_eq.trans eq_comm
  · show middle.events.emit _ = service.events.emit _
    rw [hevents, hsupply]
    rfl

/-- The end of a merge that could not read its project ends its pass. -/
theorem fails_failMerge (hpurpose : job.purpose = .sync pass) (hrank : job.stage.rank = 3)
    (hquieter : Quieter service middle) (hevents : middle.events = service.events)
    (failure : Failure) :
    ∃ stage, (middle.failMerge number job failure).jobs = (middle.setStage number stage).jobs ∧
      PassGo service job pass stage (middle.failMerge number job failure) := by
  unfold failMerge
  rw [hpurpose]
  dsimp only
  obtain ⟨stage, hsaid, hjobs⟩ := leads_isSaid_tell middle number pass
    (.error (failurePrefix pass.sync ++ failure.message))
  refine ⟨stage, hjobs, .fails hrank hsaid ?_ hevents⟩
  refine Ends.of_quieter hquieter (ends_tell _ number pass ?_)
  exact fun sync => isEnding_failure_iff failure.message

theorem passGo_of_progress (hjob : service.jobs[number]? = some job)
    (hpass : job.pass? = some pass) (h : Progress service number job next) :
    ∃ stage, service.Steps number job stage next ∧ PassGo service job pass stage next := by
  have hpurpose := Job.pass?_eq_some_iff.mp hpass
  cases h with
  | superseded hown hrank =>
      exact ⟨_, steps_of_jobs _ hjob rfl, .superseded hrank (still_of_sessions rfl rfl)⟩
  | due hown hstage =>
      exact ⟨_, steps_of_jobs _ hjob rfl, .goes (by decide) (still_of_sessions rfl rfl)⟩
  | extracted hown hstage =>
      exact ⟨_, steps_of_jobs _ hjob rfl,
        .goes (by simp [Stage.rank]) (still_of_sessions rfl rfl)⟩
  | @validated other tags diagnostics hown hstage =>
      exact ⟨.queued other.edit.origin (acceptedTags tags) (diagnostics ++ batchIssues tags),
        steps_of_jobs _ hjob rfl, .goes (by simp [Stage.rank]) (still_of_sessions rfl rfl)⟩
  | loaded hstage =>
      exact ⟨_, steps_of_jobs _ hjob rfl,
        .goes (by simp [Stage.rank]) (still_of_sessions rfl rfl)⟩
  | unloaded hstage =>
      have hreleased : Quieter service
          { service with merges := service.merges.release job.project (.job number) } :=
        quieter_of_outboxes rfl
      obtain ⟨stage, hjobs, hgo⟩ :=
        fails_failMerge hpurpose (by rw [hstage]; rfl) hreleased rfl _
      exact ⟨stage, steps_of_jobs _ hjob hjobs, hgo⟩
  | @merged merge tag rest diagnostics hstage =>
      exact ⟨.merging (merge.step service.supply.stamp service.database tag).1 rest diagnostics,
        steps_of_jobs _ hjob rfl, .goes (by simp [Stage.rank]) (still_of_sessions rfl rfl)⟩
  | @finished merge diagnostics hstage =>
      unfold endMerge
      rw [hpurpose]
      exact ⟨.announcing (some merge.report) diagnostics, steps_of_jobs _ hjob rfl,
        .merged (by rw [hstage]; rfl) (still_of_sessions rfl rfl)⟩
  | listed hstage =>
      exact ⟨_, steps_of_jobs _ hjob rfl, .listed hstage (still_of_sessions rfl rfl)⟩
  | unlisted hstage =>
      obtain ⟨stage, hjobs, hgo⟩ := completes_endAnnouncement hpurpose (.inl hstage)
        (quieter_of_outboxes (Eq.refl service.outboxes)) rfl rfl _
      exact ⟨stage, steps_of_jobs _ hjob hjobs, hgo⟩
  | @delivered report diagnostics tags hstage =>
      obtain ⟨hevents, hsupply⟩ :=
        service.deliver_silent job.project (.tagsUpdated job.project tags)
      obtain ⟨stage, hjobs, hgo⟩ := completes_endAnnouncement hpurpose (.inr ⟨tags, hstage⟩)
        (service.quieter_deliver job.project tags) hevents hsupply
        (.ok (service.receivers job.project).length)
      refine ⟨stage, steps_of_jobs _ hjob (hjobs.trans ?_), hgo⟩
      rw [setStage, setStage,
        (service.deliver_frame job.project (.tagsUpdated job.project tags)).1]
  | @admitted other session outbox hown hstage hsession houtbox =>
      have hadmitted : Quieter service (service.setSession other.session
          { session with outbox }) := by
        refine quieter_setSession hsession ?_
        intro sync
        exact Nat.le_of_eq (congrArg _ (Outbox.messages_admit? houtbox))
      exact ⟨_, steps_of_jobs _ hjob rfl, .rests hstage ⟨hadmitted, rfl⟩⟩
  | unheard hown hstage =>
      exact ⟨_, steps_of_jobs _ hjob rfl, .rests hstage (still_of_sessions rfl rfl)⟩

/-- A job without a pass ends none. -/
theorem hushed_endAnnouncement {report : Option MergeReport} {diagnostics : List Diagnostic}
    (hpass : job.pass? = none) (hquieter : Quieter service middle)
    (hevents : middle.events = service.events) (result : Except Failure Nat) :
    Hushed service (middle.endAnnouncement number job report diagnostics result) := by
  unfold endAnnouncement
  dsimp only
  split
  · rename_i pass hpurpose
    cases hpass.symm.trans (Job.pass?_eq_some_iff.mpr hpurpose)
  · rename_i vendor hpurpose
    have himported : ¬ (TagEvent.imported job.project vendor (report.getD {}).inserted
        (report.getD {}).updated (diagnostics ++ (report.getD {}).errors).length
        middle.supply.stamp.time).IsReconciled := id
    refine ⟨hquieter.trans (quieter_of_outboxes rfl), .inr ⟨_, himported, ?_⟩⟩
    rw [← hevents]
    rfl
  all_goals exact ⟨hquieter.trans (quieter_of_outboxes rfl), .inl hevents⟩

theorem hushed_of_progress (hpass : job.pass? = none) (h : Progress service number job next) :
    Hushed service next := by
  cases h with
  | superseded hown | due hown | extracted hown | validated hown | admitted hown
  | unheard hown => cases hpass.symm.trans hown
  | unloaded hstage =>
      unfold failMerge
      split
      · rename_i pass hpurpose
        cases hpass.symm.trans (Job.pass?_eq_some_iff.mpr hpurpose)
      all_goals exact hushed_of_outboxes rfl rfl
  | finished hstage =>
      unfold endMerge
      dsimp only
      split <;> exact hushed_of_outboxes rfl rfl
  | unlisted hstage =>
      exact hushed_endAnnouncement hpass (quieter_of_outboxes (Eq.refl service.outboxes)) rfl _
  | @delivered report diagnostics tags hstage =>
      exact hushed_endAnnouncement hpass (service.quieter_deliver job.project tags)
        (service.deliver_silent job.project (.tagsUpdated job.project tags)).1 _
  | loaded | merged | listed => exact hushed_of_outboxes rfl rfl

/-! ## Who says anything -/

/-- Nothing is said about passes at a move, unless by the pass whose step it is. -/
inductive Speaks (service : Service) (move : Move) (next : Service) : Prop where
  | hushed (h : Hushed service next)
  | pass {number : Nat} {job : Job} {pass : Pass} {stage : Stage}
      (hmove : move = .step (.job number)) (hpass : job.pass? = some pass)
      (hsteps : service.Steps number job stage next) (hgo : PassGo service job pass stage next)

theorem speaks_step (service : Service) (number : Nat) :
    service.Speaks (.step (.job number)) (service.moved (.step (.job number))) := by
  cases hstep : service.jobStep? number with
  | none =>
      have hsame : service.moved (.step (.job number)) = service := by
        rw [moved, step?, hstep, Option.getD_none]
      rw [hsame]
      exact .hushed (hushed_of_outboxes rfl rfl)
  | some next =>
      have hnext : service.moved (.step (.job number)) = next := by
        rw [moved, step?, hstep, Option.getD_some]
      rw [hnext]
      obtain ⟨job, hjob, hprogress⟩ := progress_of_jobStep? hstep
      cases hpass : job.pass? with
      | none => exact .hushed (hushed_of_progress hpass hprogress)
      | some pass =>
          obtain ⟨stage, hsteps, hgo⟩ := passGo_of_progress hjob hpass hprogress
          exact .pass rfl hpass hsteps hgo

theorem speaks_moved (service : Service) {move : Move}
    (hpost : ∀ number message, move ≠ .post number message)
    (hlisten : ∀ events, move ≠ .listen events) : service.Speaks move (service.moved move) := by
  by_cases hstep : ∃ number, move = .step (.job number)
  · obtain ⟨number, rfl⟩ := hstep
    exact service.speaks_step number
  · exact .hushed (service.hushed_moved (fun number heq => hstep ⟨number, heq⟩) hpost hlisten)

/-- The pass of a job has its last word: its merge was asked for, and it has not said how it
went before. -/
structure LastWord (service : Service) (number : Nat) (pass : Pass) (next : Service) : Prop where
  before : ∃ job, service.jobs[number]? = some job ∧ job.pass? = some pass ∧
    3 ≤ job.stage.rank ∧ job.stage.rank < 7
  after : ∃ job, next.jobs[number]? = some job ∧ job.pass? = some pass ∧ 7 ≤ job.stage.rank

theorem rank_of_isSaid {stage : Stage} (h : stage.IsSaid) : 7 ≤ stage.rank := by
  rcases h with rfl | rfl <;> simp [Stage.rank]

theorem rank_of_isAnnouncing {stage : Stage} {report : Option MergeReport}
    {diagnostics : List Diagnostic} (h : stage.IsAnnouncing report diagnostics) :
    stage.rank = 5 ∨ stage.rank = 6 := by
  rcases h with rfl | ⟨tags, rfl⟩
  · exact .inl rfl
  · exact .inr rfl

/-- **A message that ends a pass comes with its last word**, to its session and once. -/
theorem lastWord_of_tally_lt {move : Move}
    (hpost : ∀ number message, move ≠ .post number message)
    (hlt : service.tally sync index < (service.moved move).tally sync index) :
    ∃ number pass, pass.sync = sync ∧ pass.session = index ∧
      service.LastWord number pass (service.moved move) ∧
      (service.moved move).tally sync index = service.tally sync index + 1 := by
  by_cases hlisten : ∃ events, move = .listen events
  · obtain ⟨events, rfl⟩ := hlisten
    exact absurd hlt (Nat.lt_irrefl _)
  -- One more message about the pass means that it is this pass that ends.
  have hends : ∀ {number : Nat} {job : Job} {pass : Pass} {stage : Stage},
      service.Steps number job stage (service.moved move) → job.pass? = some pass →
      3 ≤ job.stage.rank → job.stage.rank < 7 → stage.IsSaid →
      service.Ends pass (service.moved move) → ∃ number pass, pass.sync = sync ∧
        pass.session = index ∧ service.LastWord number pass (service.moved move) ∧
        (service.moved move).tally sync index = service.tally sync index + 1 := by
    intro number job pass stage hsteps hpass hfirst hlast hsaid hends
    have hle := hends sync index
    by_cases hown : sync = pass.sync ∧ index = pass.session
    · rw [if_pos hown] at hle
      refine ⟨number, pass, hown.1.symm, hown.2.symm, ⟨?_, ?_⟩, by omega⟩
      · exact ⟨job, hsteps.before, hpass, hfirst, hlast⟩
      · exact ⟨_, hsteps.getElem?_self, hpass, rank_of_isSaid hsaid⟩
    · rw [if_neg hown] at hle
      omega
  cases service.speaks_moved hpost fun events heq => hlisten ⟨events, heq⟩ with
  | hushed h => exact absurd hlt (Nat.not_lt_of_le (h.quieter sync index))
  | pass hmove hpass hsteps hgo =>
      generalize service.moved move = next at hlt hends hsteps hgo ⊢
      -- All other steps of a pass put nothing about it into a queue.
      cases hgo with
      | goes hrank hstill => exact absurd hlt (Nat.not_lt_of_le (hstill.quieter sync index))
      | superseded hrank hstill => exact absurd hlt (Nat.not_lt_of_le (hstill.quieter sync index))
      | merged hrank hstill => exact absurd hlt (Nat.not_lt_of_le (hstill.quieter sync index))
      | listed hstage hstill => exact absurd hlt (Nat.not_lt_of_le (hstill.quieter sync index))
      | rests hstage hstill => exact absurd hlt (Nat.not_lt_of_le (hstill.quieter sync index))
      | fails hrank hsaid hown => exact hends hsteps hpass (by omega) (by omega) hsaid hown
      | completes hstage hsaid hown =>
          have hrank := rank_of_isAnnouncing hstage
          exact hends hsteps hpass (by omega) (by omega) hsaid hown

end Service

end PlcTags
