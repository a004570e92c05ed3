import PlcTags.Proofs.Service.History

/-!
# What is put into outboxes

What becomes of the outbox of a session depends on the outbox, and on what the session
knows of the project that it is about to join: this is its mail.  `MailsGo` has one
constructor for each thing that a move can do to mails, and `JobMail` one for each thing
that a step of a job can do to one of them.  Nothing else puts messages into outboxes or
takes them out.
-/

namespace PlcTags

open Live

namespace Live

/-- A message that carries the tags of a project is about this project. -/
def ServerMessage.project? : ServerMessage → Option Int
  | .subscribed project _ | .tagsUpdated project _ => some project
  | _ => none

/-- The session has listed the project that it is about to join. -/
def Call.hasListed : Call → Bool
  | .registering .. | .greeting _ => true
  | .checking _ | .joining _ => false

/-- What a session has to say, and what it is about to be told about a project. -/
structure Mail where
  outbox : Outbox
  welcome : Option Call := none

namespace Session

def mail (session : Session) : Mail :=
  ⟨session.outbox, session.call.filter Call.hasListed⟩

variable {session : Session}

theorem mail_of_idle (h : session.call = none) : session.mail = { outbox := session.outbox } := by
  rw [mail, h]
  rfl

theorem mail_of_call {call : Call} (h : session.call = some call) (hlisted : call.hasListed = true) :
    session.mail = ⟨session.outbox, some call⟩ := by
  rw [mail, h, Option.filter_some, if_pos hlisted]

theorem mail_of_unlisted {call : Call} (h : session.call = some call)
    (hunlisted : call.hasListed = false) : session.mail = { outbox := session.outbox } := by
  rw [mail, h, Option.filter_some, if_neg (by simp [hunlisted])]

end Session

end Live

namespace Service

variable {service middle next : Service} {number index : Nat} {session : Session} {job : Job}
  {pass : Pass} {stage : Stage} {move : Move} {mail : Mail}

/-! ## Mails -/

def mails (service : Service) : List Mail :=
  service.sessions.map Session.mail

theorem getElem?_mails (h : service.sessions[number]? = some session) :
    service.mails[number]? = some session.mail := by
  rw [mails, List.getElem?_map, h, Option.map_some]

theorem exists_of_getElem?_mails (h : service.mails[number]? = some mail) :
    ∃ session, service.sessions[number]? = some session ∧ session.mail = mail := by
  rw [mails, List.getElem?_map] at h
  exact Option.map_eq_some_iff.mp h

theorem mails_setSession (service : Service) (number : Nat) (session : Session) :
    (service.setSession number session).mails = service.mails.set number session.mail :=
  List.map_set

theorem mails_updateSession (h : service.sessions[number]? = some session)
    (change : Session → Session) :
    (service.updateSession number change).mails =
      service.mails.set number (change session).mail := by
  rw [mails, updateSession, List.modify_eq_set_getElem?, h]
  exact List.map_set

theorem mails_setSession_same (h : service.sessions[number]? = some session) {later : Session}
    (hsame : later.mail = session.mail) :
    (service.setSession number later).mails = service.mails := by
  rw [mails_setSession, hsame]
  exact set_of_getElem? (getElem?_mails h)

/-- A change that leaves the mail of its session alone leaves all mails alone. -/
theorem mails_updateSession_same {change : Session → Session}
    (hchange : ∀ session, service.sessions[number]? = some session →
      (change session).mail = session.mail) :
    (service.updateSession number change).mails = service.mails := by
  cases hsession : service.sessions[number]? with
  | none =>
      rw [mails, updateSession, List.modify_eq_set_getElem?, hsession]
      rfl
  | some session =>
      rw [mails_updateSession hsession, hchange session hsession]
      exact set_of_getElem? (getElem?_mails hsession)

/-- A change of an outbox leaves the rest of the mail alone. -/
theorem getElem?_mails_updateSession (number : Nat) (change : Outbox → Outbox)
    (h : service.mails[index]? = some mail) :
    (service.updateSession number fun session =>
      { session with outbox := change session.outbox }).mails[index]? =
        some (if number = index then { mail with outbox := change mail.outbox } else mail) := by
  obtain ⟨session, hsession, rfl⟩ := exists_of_getElem?_mails h
  rw [mails, List.getElem?_map, updateSession, List.getElem?_modify, hsession]
  split <;> rfl

theorem length_mails (service : Service) : service.mails.length = service.sessions.length :=
  List.length_map _

/-! ## Jobs -/

/-- The outbox of a session after a job has delivered the tags of its project. -/
def delivered (service : Service) (job : Job) (number : Nat) (outbox : Outbox) : Outbox :=
  match job.stage with
  | .delivering _ _ tags =>
    if number ∈ service.registry.subscribers job.project then
      outbox.offer (.tagsUpdated job.project tags)
    else outbox
  | _ => outbox

/-- What the step that leads a job to a stage does to the outbox of a session. -/
inductive JobMail (service : Service) (index : Nat) (job : Job) (stage : Stage) (number : Nat)
    (outbox : Outbox) : Outbox → Prop where
  /-- The job has nothing to say to the session alone. -/
  | rests (hheard : ∀ {pass}, job.pass? = some pass → pass.session = number →
        job.stage = .reporting → outbox.isAwaitedBy (.job index) = false) :
      JobMail service index job stage number outbox (service.delivered job number outbox)
  /-- A pass ends, and says so. -/
  | tells {pass : Pass} {message : ServerMessage} (hpass : job.pass? = some pass)
      (hsession : pass.session = number) (hmessage : message.project? = none)
      (hrank : job.stage.rank < 7)
      (hwaits : ((service.delivered job number outbox).send (.job index) message).isAwaitedBy
        (.job index) = true → stage = .reporting) :
      JobMail service index job stage number outbox
        ((service.delivered job number outbox).send (.job index) message)
  /-- There is room for what a pass has said. -/
  | admits {pass : Pass} {later : Outbox} (hpass : job.pass? = some pass)
      (hsession : pass.session = number) (hstage : job.stage = .reporting)
      (houtbox : outbox.admit? (.job index) = some later) :
      JobMail service index job stage number outbox later

/-- What a step of a job does to mails. -/
structure JobMails (service : Service) (index : Nat) (job : Job) (stage : Stage) (next : Service) :
    Prop where
  steps : service.Steps index job stage next
  length : next.mails.length = service.mails.length
  mails : ∀ {number : Nat} {mail : Mail}, service.mails[number]? = some mail →
    ∃ outbox, next.mails[number]? = some { mail with outbox } ∧
      JobMail service index job stage number mail.outbox outbox

theorem delivered_of_rank (hrank : job.stage.rank ≠ 6) (number : Nat) (outbox : Outbox) :
    service.delivered job number outbox = outbox := by
  unfold delivered
  split
  · rename_i hstage
    rw [hstage] at hrank
    exact absurd rfl hrank
  · rfl

/-- The job says nothing. -/
theorem jobMails_of_mails (hjob : service.jobs[index]? = some job)
    (hjobs : next.jobs = (service.setStage index stage).jobs) (hmails : next.mails = service.mails)
    (hrank : job.stage.rank < 6) : service.JobMails index job stage next where
  steps := steps_of_jobs _ hjob hjobs
  length := by rw [hmails]
  mails := by
    intro number mail hmail
    refine ⟨mail.outbox, by rw [hmails]; exact hmail, ?_⟩
    have hrests : service.JobMail index job stage number mail.outbox
        (service.delivered job number mail.outbox) := by
      refine .rests ?_
      intro pass hpass hsession hstage
      rw [hstage] at hrank
      simp [Stage.rank] at hrank
    rwa [delivered_of_rank (by omega)] at hrests

/-- Every session has what a job has delivered. -/
def HasDelivered (service : Service) (job : Job) (middle : Service) : Prop :=
  middle.mails.length = service.mails.length ∧ ∀ {number : Nat} {mail : Mail},
    service.mails[number]? = some mail →
      middle.mails[number]? =
        some { mail with outbox := service.delivered job number mail.outbox }

theorem hasDelivered_of_mails (hmails : middle.mails = service.mails)
    (hrank : job.stage.rank ≠ 6) : service.HasDelivered job middle := by
  refine ⟨by rw [hmails], ?_⟩
  intro number mail hmail
  rw [hmails, delivered_of_rank hrank]
  exact hmail

/-- A job that is no pass says nothing to one session alone. -/
theorem jobMails_of_delivered (hjob : service.jobs[index]? = some job)
    (hjobs : next.jobs = (service.setStage index stage).jobs) (hmails : next.mails = middle.mails)
    (hdelivered : service.HasDelivered job middle) (hrank : job.stage.rank < 7) :
    service.JobMails index job stage next where
  steps := steps_of_jobs _ hjob hjobs
  length := by rw [hmails, hdelivered.1]
  mails := by
    intro number mail hmail
    refine ⟨_, by rw [hmails]; exact hdelivered.2 hmail, .rests ?_⟩
    intro pass hpass hsession hstage
    rw [hstage] at hrank
    simp [Stage.rank] at hrank

/-- A pass that waits for room with what it has said is reporting. -/
theorem jobs_tell (service : Service) (index : Nat) (pass : Pass) (message : ServerMessage) :
    ∃ stage : Stage,
      (service.tell index pass message).jobs = (service.setStage index stage).jobs ∧
        ∀ mail, (service.tell index pass message).mails[pass.session]? = some mail →
          mail.outbox.isAwaitedBy (.job index) = true → stage = .reporting := by
  unfold tell
  refine ⟨_, rfl, ?_⟩
  intro mail hmail hawaited
  obtain ⟨session, hsession, rfl⟩ := exists_of_getElem?_mails hmail
  have hwaits : session.outbox.isAwaitedBy (.job index) = true := hawaited
  simp only [setStage] at hsession
  rw [hsession, Option.any_some, hwaits]
  rfl

theorem getElem?_mails_tell (index : Nat) (pass : Pass) (message : ServerMessage)
    (h : service.mails[number]? = some mail) :
    (service.tell index pass message).mails[number]? = some
      (if pass.session = number then
        { mail with outbox := mail.outbox.send (.job index) message }
      else mail) :=
  getElem?_mails_updateSession pass.session (·.send (.job index) message) h

theorem length_mails_tell (service : Service) (index : Nat) (pass : Pass)
    (message : ServerMessage) :
    (service.tell index pass message).mails.length = service.mails.length := by
  rw [length_mails, length_mails]
  exact List.length_modify ..

/-- A pass says something to its session. -/
theorem jobMails_tell {message : ServerMessage} (hjob : service.jobs[index]? = some job)
    (hjobs : middle.jobs = service.jobs) (hdelivered : service.HasDelivered job middle)
    (hpass : job.pass? = some pass) (hrank : job.stage.rank < 7)
    (hmessage : message.project? = none) :
    ∃ stage, service.JobMails index job stage (middle.tell index pass message) := by
  obtain ⟨hlength, hsame⟩ := hdelivered
  obtain ⟨stage, hstage, hreporting⟩ := middle.jobs_tell index pass message
  refine ⟨stage, steps_of_jobs stage hjob ?_, ?_, ?_⟩
  · rw [hstage, setStage, setStage, hjobs]
  · rw [length_mails_tell, hlength]
  · intro number mail hmail
    have hlater := getElem?_mails_tell index pass message (hsame hmail)
    by_cases hown : pass.session = number
    · subst hown
      rw [if_pos rfl] at hlater
      exact ⟨_, hlater, .tells hpass rfl hmessage hrank (hreporting _ hlater)⟩
    · rw [if_neg hown] at hlater
      refine ⟨_, hlater, .rests ?_⟩
      intro other hother hsession hstage
      obtain rfl := Option.some.inj (hpass.symm.trans hother)
      exact absurd hsession hown

theorem getElem?_mails_deliver (service : Service) (project : Int) (message : ServerMessage)
    (hnodup : (service.registry.subscribers project).Nodup)
    (hmail : service.mails[number]? = some mail) :
    (service.deliver project message).mails[number]? = some
      (if number ∈ service.registry.subscribers project then
        { mail with outbox := mail.outbox.offer message }
      else mail) := by
  unfold deliver
  generalize service.registry.subscribers project = numbers at hnodup ⊢
  induction numbers generalizing service mail with
  | nil => simpa using hmail
  | cons first rest ih =>
      obtain ⟨hfirst, hrest⟩ := List.nodup_cons.mp hnodup
      have hoffered := getElem?_mails_updateSession first (·.offer message) hmail
      rw [List.foldl_cons, ih _ hoffered hrest]
      by_cases hnumber : first = number
      · subst hnumber
        simp [hfirst]
      · simp [hnumber, Ne.symm hnumber]

theorem length_mails_deliver (service : Service) (project : Int) (message : ServerMessage) :
    (service.deliver project message).mails.length = service.mails.length := by
  unfold deliver
  generalize service.registry.subscribers project = numbers
  induction numbers generalizing service with
  | nil => rfl
  | cons first rest ih =>
      rw [List.foldl_cons, ih, length_mails, length_mails]
      exact List.length_modify ..

theorem hasDelivered_deliver {report : Option MergeReport} {diagnostics : List Diagnostic}
    {tags : List StoredTag} (hstage : job.stage = .delivering report diagnostics tags)
    (hnodup : (service.registry.subscribers job.project).Nodup) :
    service.HasDelivered job (service.deliver job.project (.tagsUpdated job.project tags)) := by
  refine ⟨service.length_mails_deliver _ _, ?_⟩
  intro number mail hmail
  rw [getElem?_mails_deliver _ _ _ hnodup hmail]
  simp only [delivered, hstage]
  split <;> rfl

theorem jobMails_endAnnouncement {report : Option MergeReport} {diagnostics : List Diagnostic}
    (hjob : service.jobs[index]? = some job) (hjobs : middle.jobs = service.jobs)
    (hdelivered : service.HasDelivered job middle) (hrank : job.stage.rank < 7)
    (result : Except Failure Nat) :
    ∃ stage, service.JobMails index job stage
      (middle.endAnnouncement index job report diagnostics result) := by
  have hended : ∀ {outcome : Outcome} {next : Service},
      next.jobs = (middle.setStage index (.ended outcome)).jobs → next.mails = middle.mails →
        ∃ stage, service.JobMails index job stage next := by
    intro outcome next hnext hmails
    refine ⟨.ended outcome, jobMails_of_delivered hjob (hnext.trans ?_) hmails hdelivered hrank⟩
    rw [setStage, setStage, hjobs]
  unfold endAnnouncement
  dsimp only
  split
  · rename_i pass hpurpose
    have hpass := Job.pass?_eq_some_iff.mpr hpurpose
    refine jobMails_tell hjob ?_ ⟨hdelivered.1, hdelivered.2⟩ hpass hrank rfl
    exact hjobs
  all_goals exact hended rfl rfl

theorem jobMails_failMerge (hjob : service.jobs[index]? = some job)
    (hrank : job.stage.rank < 6) (hjobs : middle.jobs = service.jobs)
    (hmails : middle.mails = service.mails) (failure : Failure) :
    ∃ stage, service.JobMails index job stage (middle.failMerge index job failure) := by
  have hended : ∀ {outcome : Outcome},
      ∃ stage, service.JobMails index job stage (middle.setStage index (.ended outcome)) := by
    intro outcome
    refine ⟨.ended outcome, jobMails_of_mails hjob ?_ hmails hrank⟩
    rw [setStage, setStage, hjobs]
  unfold failMerge
  split
  · rename_i pass hpurpose
    exact jobMails_tell hjob hjobs (hasDelivered_of_mails hmails (by omega))
      (Job.pass?_eq_some_iff.mpr hpurpose) (by omega) rfl
  all_goals exact hended

/-- A pass that waits for room for its report goes on when there is room, or nobody will
take it out any more. -/
theorem jobMails_awaitRoom? (hjob : service.jobs[index]? = some job)
    (hstage : job.stage = .reporting) (hpass : job.pass? = some pass)
    (h : service.awaitRoom? index pass = some next) :
    service.JobMails index job (.ended .told) next := by
  unfold awaitRoom? at h
  obtain ⟨session, hsession, h⟩ := Option.bind_eq_some_iff.mp h
  have hrank : job.stage.rank ≠ 6 := by simp [hstage, Stage.rank]
  -- An outbox in which the report does not wait stays as it is.
  have hrests : ∀ {number : Nat} {outbox : Outbox}, (pass.session = number →
      outbox.isAwaitedBy (.job index) = false) →
        service.JobMail index job (.ended .told) number outbox outbox := by
    intro number outbox hheard
    have hrests : service.JobMail index job (.ended .told) number outbox
        (service.delivered job number outbox) := by
      refine .rests ?_
      intro other hother hnumber _
      obtain rfl := Option.some.inj (hpass.symm.trans hother)
      exact hheard hnumber
    rwa [delivered_of_rank hrank] at hrests
  split at h
  · obtain ⟨outbox, houtbox, h⟩ := Option.bind_eq_some_iff.mp h
    obtain rfl := Option.some.inj h
    have hmails : ((service.setSession pass.session { session with outbox }).setStage index
        (.ended .told)).mails = service.mails.set pass.session { session.mail with outbox } :=
      mails_setSession ..
    refine ⟨steps_of_jobs _ hjob rfl, by rw [hmails, List.length_set], ?_⟩
    intro number mail hmail
    obtain ⟨hlength, -⟩ := List.getElem?_eq_some_iff.mp hmail
    rw [hmails, List.getElem?_set]
    by_cases hown : pass.session = number
    · subst hown
      obtain rfl := Option.some.inj ((getElem?_mails hsession).symm.trans hmail)
      refine ⟨outbox, by rw [if_pos rfl, if_pos hlength], ?_⟩
      exact .admits hpass rfl hstage houtbox
    · refine ⟨mail.outbox, by rw [if_neg hown]; exact hmail, hrests ?_⟩
      exact fun hnumber => absurd hnumber hown
  · rename_i hawaited
    obtain rfl := Option.some.inj h
    refine ⟨steps_of_jobs _ hjob rfl, rfl, ?_⟩
    intro number mail hmail
    refine ⟨mail.outbox, hmail, hrests ?_⟩
    rintro rfl
    obtain rfl := Option.some.inj ((getElem?_mails hsession).symm.trans hmail)
    exact Bool.eq_false_iff.mpr hawaited

/-- **What a step of a job does to mails.** -/
theorem jobMails_of_jobStep? (h : service.jobStep? index = some next)
    (hnodup : ∀ project, (service.registry.subscribers project).Nodup) :
    ∃ job stage, service.JobMails index job stage next := by
  obtain ⟨job, hjob, hprogress⟩ := progress_of_jobStep? h
  refine ⟨job, ?_⟩
  -- Before it delivers, a job touches no outbox.
  cases hprogress with
  | superseded hpass hrank => exact ⟨_, jobMails_of_mails hjob rfl rfl (by omega)⟩
  | due hpass hstage | extracted hpass hstage | loaded hstage | listed hstage =>
      exact ⟨_, jobMails_of_mails hjob rfl rfl (by simp [hstage, Stage.rank])⟩
  | @validated pass tags diagnostics hpass hstage =>
      exact ⟨.queued pass.edit.origin (acceptedTags tags) (diagnostics ++ batchIssues tags),
        jobMails_of_mails hjob rfl rfl (by simp [hstage, Stage.rank])⟩
  | @merged merge tag rest diagnostics hstage =>
      exact ⟨.merging (merge.step service.supply.stamp service.database tag).1 rest diagnostics,
        jobMails_of_mails hjob rfl rfl (by simp [hstage, Stage.rank])⟩
  | unloaded hstage =>
      refine jobMails_failMerge hjob (by simp [hstage, Stage.rank]) ?_ ?_ _
      · rfl
      · rfl
  | @finished merge diagnostics hstage =>
      have hrank : job.stage.rank < 6 := by simp [hstage, Stage.rank]
      unfold endMerge
      dsimp only
      split
      · exact ⟨.announcing (some merge.report) diagnostics,
          jobMails_of_mails hjob rfl rfl hrank⟩
      · exact ⟨.announcing (some merge.report) diagnostics,
          jobMails_of_mails hjob rfl rfl hrank⟩
      · exact ⟨.ended (.merged (.ok merge.report)), jobMails_of_mails hjob rfl rfl hrank⟩
      · exact ⟨.ended (.merged (.ok merge.report)), jobMails_of_mails hjob rfl rfl hrank⟩
  | unlisted hstage =>
      have hrank : job.stage.rank < 6 := by simp [hstage, Stage.rank]
      exact jobMails_endAnnouncement hjob rfl (hasDelivered_of_mails rfl (by omega)) (by omega) _
  | delivered hstage =>
      refine jobMails_endAnnouncement hjob (service.deliver_frame ..).1
        (hasDelivered_deliver hstage (hnodup job.project)) (by simp [hstage, Stage.rank]) _
  | admitted hpass hstage | unheard hpass hstage =>
      refine ⟨_, jobMails_awaitRoom? hjob hstage hpass ?_⟩
      rw [jobStep?, hjob, Option.bind_eq_bind, Option.bind_some] at h
      simp only [hstage, hpass] at h
      exact h

/-! ## Sessions and clients -/

/-- What a session or its client does to its mail. -/
inductive MailGo (service : Service) (number : Nat) : Move → Mail → Mail → Prop where
  | loads {outbox : Outbox} {project : Int} {tags : List StoredTag}
      (hturn : service.announcements.isHeldBy project (.session number) = true)
      (hloads : service.database.list project = .ok tags) :
      MailGo service number (.step (.session number)) { outbox }
        ⟨outbox, some (.registering project tags)⟩
  | registers {outbox : Outbox} {project : Int} {tags : List StoredTag}
      (hwaits : (outbox.send (.session number) (.subscribed project tags)).isAwaitedBy
        (.session number) = true) :
      MailGo service number (.step (.session number)) ⟨outbox, some (.registering project tags)⟩
        ⟨outbox.send (.session number) (.subscribed project tags), some (.greeting project)⟩
  | joins {outbox : Outbox} {project : Int} {tags : List StoredTag}
      (hgoes : (outbox.send (.session number) (.subscribed project tags)).isAwaitedBy
        (.session number) = false) :
      MailGo service number (.step (.session number)) ⟨outbox, some (.registering project tags)⟩
        { outbox := outbox.send (.session number) (.subscribed project tags) }
  | greets {outbox later : Outbox} {project : Int}
      (houtbox : outbox.admit? (.session number) = some later) :
      MailGo service number (.step (.session number)) ⟨outbox, some (.greeting project)⟩
        { outbox := later }
  /-- Nobody will take the tags out any more. -/
  | unheard {outbox : Outbox} {project : Int}
      (hheard : outbox.isAwaitedBy (.session number) = false) :
      MailGo service number (.step (.session number)) ⟨outbox, some (.greeting project)⟩
        { outbox }
  | takes {mail : Mail} {message : ServerMessage} {later : Outbox}
      (htakes : mail.outbox.take? = some (message, later)) :
      MailGo service number (.takeMessage number) mail { mail with outbox := later }
  | hangsUp {mail : Mail} :
      MailGo service number (.hangUp number) mail { mail with outbox := mail.outbox.close }
  | posts {mail : Mail} (message : ServerMessage) :
      MailGo service number (.post number message) mail
        { mail with outbox := mail.outbox.offer message }

/-- It is not the step of a job. -/
theorem MailGo.ne_step {later : Mail} (hgo : MailGo service number move mail later) (index : Nat) :
    move ≠ .step (.job index) := by
  cases hgo <;> simp

/-- What a move does to mails. -/
inductive MailsGo (service : Service) (move : Move) (next : Service) : Prop where
  | rests (hmails : next.mails = service.mails)
      (hjobs : ∀ index, move = .step (.job index) → next = service)
  | opened {outbox : Outbox} (hmove : ∀ index, move ≠ .step (.job index))
      (hqueue : outbox.queue = []) (hwaiting : outbox.waiting = [])
      (hmails : next.mails = service.mails ++ [({ outbox } : Mail)])
  | changes {number : Nat} {mail later : Mail} (hmail : service.mails[number]? = some mail)
      (hgo : MailGo service number move mail later)
      (hmails : next.mails = service.mails.set number later)
  | job {index : Nat} {job : Job} {stage : Stage} (hmove : move = .step (.job index))
      (hmails : service.JobMails index job stage next)

/-- What a move does to the mail of one session. -/
inductive MailStep (service : Service) (number : Nat) (move : Move) (next : Service)
    (mail : Mail) : Mail → Prop where
  | rests (hjobs : ∀ index, move = .step (.job index) → next = service) :
      MailStep service number move next mail mail
  | goes {later : Mail} (hgo : MailGo service number move mail later) :
      MailStep service number move next mail later
  | job {index : Nat} {job : Job} {stage : Stage} {outbox : Outbox}
      (hmove : move = .step (.job index)) (hsteps : service.Steps index job stage next)
      (hgo : service.JobMail index job stage number mail.outbox outbox) :
      MailStep service number move next mail { mail with outbox }

theorem MailsGo.getElem? (h : MailsGo service move next)
    (hmail : service.mails[number]? = some mail) :
    ∃ later, next.mails[number]? = some later ∧
      MailStep service number move next mail later := by
  have hlength := (List.getElem?_eq_some_iff.mp hmail).1
  cases h with
  | rests hmails hjobs => exact ⟨mail, hmails ▸ hmail, .rests hjobs⟩
  | opened hmove hqueue hwaiting hmails =>
      refine ⟨mail, ?_, .rests fun index heq => absurd heq (hmove index)⟩
      rw [hmails, List.getElem?_append_left hlength, hmail]
  | @changes own before later hbefore hgo hmails =>
      by_cases hown : own = number
      · subst hown
        obtain rfl := Option.some.inj (hmail.symm.trans hbefore)
        exact ⟨later, by rw [hmails, List.getElem?_set_self hlength], .goes hgo⟩
      · refine ⟨mail, ?_, .rests fun index heq => absurd heq (hgo.ne_step index)⟩
        rw [hmails, List.getElem?_set_ne hown, hmail]
  | job hmove hmails =>
      obtain ⟨outbox, hlater, hgo⟩ := hmails.mails hmail
      exact ⟨_, hlater, .job hmove hmails.steps hgo⟩

/-- A mail was there before, or is new and empty. -/
theorem MailsGo.of_getElem? (h : MailsGo service move next) {later : Mail}
    (hlater : next.mails[number]? = some later) :
    (∃ mail, service.mails[number]? = some mail ∧
        MailStep service number move next mail later) ∨
      later.welcome = none ∧ later.outbox.queue = [] ∧ later.outbox.waiting = [] := by
  cases hmail : service.mails[number]? with
  | some mail =>
      obtain ⟨found, hfound, hstep⟩ := h.getElem? hmail
      obtain rfl := Option.some.inj (hlater.symm.trans hfound)
      exact .inl ⟨mail, rfl, hstep⟩
  | none =>
      have hlength := List.getElem?_eq_none_iff.mp hmail
      have hbound := (List.getElem?_eq_some_iff.mp hlater).1
      cases h with
      | rests hmails =>
          rw [hmails] at hbound
          omega
      | opened hmove hqueue hwaiting hmails =>
          rw [hmails] at hlater
          rcases of_getElem?_concat hlater with hold | ⟨-, rfl⟩
          · cases hmail.symm.trans hold
          · exact .inr ⟨rfl, hqueue, hwaiting⟩
      | changes hbefore hgo hmails =>
          rw [hmails, List.length_set] at hbound
          omega
      | job hmove hmails =>
          rw [hmails.length] at hbound
          omega

theorem mails_checkCredential (h : service.sessions[number]? = some session)
    {credential : Option String} (hcall : session.call = some (.checking credential)) :
    (service.checkCredential number session credential).mails = service.mails := by
  have hmail := session.mail_of_unlisted hcall rfl
  unfold checkCredential
  split
  · rename_i identity haccepted
    have hsame : ({ session with
        state := .authenticated, identity := some identity }.answer
          (some (.authenticated identity))).mail = session.mail := by
      rw [hmail]
      rfl
    exact mails_setSession_same h hsame
  · refine mails_updateSession_same ?_
    intro found hfound
    obtain rfl := Option.some.inj (h.symm.trans hfound)
    rw [hmail]
    rfl

/-- What is left of a join leaves the outbox as it is. -/
theorem mails_endJoin (h : service.sessions[number]? = some session) (project : Int) :
    (service.endJoin number project).mails =
      service.mails.set number { outbox := session.outbox } :=
  mails_updateSession h _

theorem mailsGo_register (h : service.sessions[number]? = some session) {project : Int}
    {tags : List StoredTag} (hcall : session.call = some (.registering project tags)) :
    MailsGo service (.step (.session number)) (service.register number session project tags) := by
  have hmail := getElem?_mails h
  rw [session.mail_of_call hcall rfl] at hmail
  unfold register
  dsimp only
  split
  · rename_i hwaits
    exact .changes hmail (.registers hwaits) (mails_setSession ..)
  · rename_i hgoes
    refine .changes hmail (.joins (Bool.eq_false_iff.mpr hgoes)) ?_
    have hlength := (List.getElem?_eq_some_iff.mp h).1
    rw [mails_endJoin (List.getElem?_set_self hlength), mails_setSession, List.set_set]
    rfl

theorem mailsGo_greet? (h : service.sessions[number]? = some session) {project : Int}
    (hcall : session.call = some (.greeting project))
    (hgreets : service.greet? number session project = some next) :
    MailsGo service (.step (.session number)) next := by
  have hmail := getElem?_mails h
  rw [session.mail_of_call hcall rfl] at hmail
  unfold greet? at hgreets
  split at hgreets
  · obtain ⟨outbox, houtbox, rfl⟩ := Option.map_eq_some_iff.mp hgreets
    refine .changes hmail (.greets houtbox) ?_
    have hlength := (List.getElem?_eq_some_iff.mp h).1
    rw [mails_endJoin (List.getElem?_set_self hlength), mails_setSession, List.set_set]
  · rename_i hheard
    obtain rfl := Option.some.inj hgreets
    exact .changes hmail (.unheard (Bool.eq_false_iff.mpr hheard)) (mails_endJoin h project)

theorem mailsGo_loadForJoin (h : service.sessions[number]? = some session) {project : Int}
    (hcall : session.call = some (.joining project))
    (hturn : service.announcements.isHeldBy project (.session number) = true) :
    MailsGo service (.step (.session number)) (service.loadForJoin number project) := by
  have hmail := getElem?_mails h
  rw [session.mail_of_unlisted hcall rfl] at hmail
  unfold loadForJoin
  split
  · rename_i tags hloads
    exact .changes hmail (.loads hturn hloads) (mails_updateSession h _)
  · refine .rests ?_ nofun
    refine mails_updateSession_same ?_
    intro found hfound
    obtain rfl := Option.some.inj (h.symm.trans hfound)
    rw [session.mail_of_unlisted hcall rfl]
    rfl

theorem mailsGo_sessionStep? (h : service.sessionStep? number = some next) :
    MailsGo service (.step (.session number)) next := by
  unfold sessionStep? at h
  obtain ⟨session, hsession, h⟩ := Option.bind_eq_some_iff.mp h
  obtain ⟨call, hcall, h⟩ := Option.bind_eq_some_iff.mp h
  cases call with
  | checking credential =>
      obtain rfl := Option.some.inj h
      exact .rests (mails_checkCredential hsession hcall) nofun
  | joining project =>
      simp only [Option.ite_none_right_eq_some] at h
      obtain ⟨hturn, h⟩ := h
      obtain rfl := Option.some.inj h
      exact mailsGo_loadForJoin hsession hcall hturn
  | registering project tags =>
      obtain rfl := Option.some.inj h
      exact mailsGo_register hsession hcall
  | greeting project => exact mailsGo_greet? hsession hcall h

/-! ## Calls begin and end -/

/-- A session that can be called has listed nothing, and neither has one whose call has just
begun. -/
theorem mails_updateSession_of_idle (h : service.sessions[number]? = some session)
    (hidle : session.call = none) {change : Session → Session}
    (hchange : (change session).mail = { outbox := session.outbox }) :
    (service.updateSession number change).mails = service.mails := by
  refine mails_updateSession_same ?_
  intro found hfound
  obtain rfl := Option.some.inj (h.symm.trans hfound)
  rw [hchange, session.mail_of_idle hidle]

theorem mails_answer (h : service.sessions[number]? = some session) (hidle : session.call = none)
    (reply : ServerMessage) : (service.answer number reply).mails = service.mails :=
  mails_updateSession_of_idle h hidle rfl

theorem mails_beginCheck (h : service.sessions[number]? = some session)
    (hidle : session.call = none) (credential : Option String) :
    (service.beginCheck number session credential).mails = service.mails := by
  unfold beginCheck
  split
  · exact mails_updateSession_of_idle h hidle rfl
  · exact mails_answer h hidle _

theorem mails_leave (h : service.sessions[number]? = some session) (hidle : session.call = none)
    (project : Int) : (service.leave number project).mails = service.mails := by
  have hleft : { session with slot := session.slot.cancel, state := .authenticated }.mail =
      { outbox := session.outbox } := Session.mail_of_idle hidle
  exact mails_updateSession_of_idle h hidle hleft

/-- A session that has left its project can still be called. -/
theorem getElem?_sessions_leave_of_idle (h : service.sessions[number]? = some session)
    (hidle : session.call = none) (project : Int) :
    ∃ left, (service.leave number project).sessions[number]? = some left ∧ left.call = none :=
  ⟨_, getElem?_sessions_leave h project, hidle⟩

theorem mails_beginJoin (h : service.sessions[number]? = some session)
    (hidle : session.call = none) (project : Int) :
    (service.beginJoin number session project).mails = service.mails := by
  unfold beginJoin
  dsimp only
  split
  · rename_i previous hprevious
    obtain ⟨left, hleft, hfree⟩ := getElem?_sessions_leave_of_idle h hidle previous
    exact (mails_updateSession_of_idle hleft hfree rfl).trans (mails_leave h hidle previous)
  · exact mails_updateSession_of_idle h hidle rfl

theorem mails_acceptEdit (h : service.sessions[number]? = some session)
    (hidle : session.call = none) (project : Int) (edit : Edit) :
    (service.acceptEdit number session project edit).mails = service.mails := by
  unfold acceptEdit
  dsimp only
  split
  · exact mails_updateSession_of_idle h hidle rfl
  · have hsame : ({ session with slot := session.slot.arm }.answer
        (some (.syncQueued (service.syncs + 1)))).mail = session.mail := by
      rw [session.mail_of_idle hidle]
      rfl
    exact mails_setSession_same h hsame

theorem mails_beginHandle (h : service.sessions[number]? = some session)
    (hidle : session.call = none) (message : ClientMessage) :
    (service.beginHandle number session message).mails = service.mails := by
  unfold beginHandle
  split
  · exact mails_answer h hidle _
  · exact mails_beginCheck h hidle _
  · exact mails_answer h hidle _
  · exact mails_beginJoin h hidle _
  · rename_i project hstate
    obtain ⟨left, hleft, hfree⟩ := getElem?_sessions_leave_of_idle h hidle project
    exact (mails_answer hleft hfree _).trans (mails_leave h hidle project)
  · exact mails_answer h hidle _
  · exact mails_acceptEdit h hidle _ _
  · exact mails_answer h hidle _

/-- What has been said stays in the outbox when a session ends. -/
theorem mails_endSession (h : service.sessions[number]? = some session)
    (hidle : session.call = none) {change : Session → Session}
    (hchange : ∀ session : Session, session.call = none →
      (change session).mail = { outbox := session.outbox }) :
    ((service.endSession number session).updateSession number change).mails = service.mails := by
  cases hclosed : session.isClosed with
  | true =>
      rw [endSession_of_isClosed hclosed]
      exact mails_updateSession_of_idle h hidle (hchange session hidle)
  | false =>
      obtain ⟨hsessions, -, -⟩ := service.endSession_of_open number hclosed
      have hlength := (List.getElem?_eq_some_iff.mp h).1
      have hthere := (congrArg (·[number]?) hsessions).trans (List.getElem?_set_self hlength)
      rw [mails_updateSession_of_idle hthere hidle (hchange _ hidle)]
      have hsame : (closedSession session).mail = session.mail := rfl
      exact (congrArg (List.map Session.mail) hsessions).trans (mails_setSession_same h hsame)

/-! ## Every move -/

theorem mails_withIdle {act : Session → Service}
    (h : ∀ session, service.sessions[number]? = some session → session.call = none →
      (act session).mails = service.mails) :
    (service.withIdle number act).mails = service.mails := by
  unfold withIdle
  split
  · rename_i session hsession
    split
    · rename_i hidle
      exact h session hsession (call_of_isIdle hidle)
    · rfl
  · rfl

/-- A client, or whoever answers it, changes an outbox. -/
theorem mailsGo_updateSession (change : Outbox → Outbox)
    (hmove : ∀ index, move ≠ .step (.job index))
    (hgo : ∀ mail : Mail, MailGo service number move mail { mail with outbox := change mail.outbox }) :
    MailsGo service move (service.updateSession number fun session =>
      { session with outbox := change session.outbox }) := by
  cases hsession : service.sessions[number]? with
  | none =>
      refine .rests ?_ fun index heq => absurd heq (hmove index)
      refine mails_updateSession_same ?_
      intro session hfound
      cases hsession.symm.trans hfound
  | some session =>
      exact .changes (getElem?_mails hsession) (hgo _) (mails_updateSession hsession _)

theorem mailsGo_openSession (service : Service) (capacity : Nat) :
    MailsGo service (.openSession capacity)
      ((service.openSession? capacity).getD service) := by
  unfold openSession? Outbox.new?
  split
  · exact .opened nofun rfl rfl List.map_append
  · exact .rests rfl nofun

theorem mailsGo_takeMessage (service : Service) (number : Nat) :
    MailsGo service (.takeMessage number)
      (((service.takeMessage? number).map Prod.snd).getD service) := by
  cases htake : service.takeMessage? number with
  | none => exact .rests rfl nofun
  | some taken =>
      obtain ⟨session, message, outbox, hsession, htakes, rfl⟩ :=
        takeMessage?_eq_some_iff.mp htake
      exact .changes (getElem?_mails hsession) (.takes htakes) (mails_setSession ..)

theorem mails_importContainer (service : Service) (project : Int) (vendor : Vendor)
    (format : Option Container.Format) (bytes : ByteArray) :
    ((service.importContainer project vendor format bytes).toOption.getD service).mails =
      service.mails := by
  unfold importContainer
  split <;> rfl

theorem mailsGo_step (service : Service) (party : Party)
    (hnodup : ∀ project, (service.registry.subscribers project).Nodup) :
    MailsGo service (.step party) (service.moved (.step party)) := by
  cases party with
  | session number =>
      show MailsGo service _ ((service.sessionStep? number).getD service)
      cases hnext : service.sessionStep? number with
      | none => exact .rests rfl nofun
      | some next => exact mailsGo_sessionStep? hnext
  | job index =>
      show MailsGo service _ ((service.jobStep? index).getD service)
      cases hnext : service.jobStep? index with
      | none => exact .rests rfl fun _ _ => rfl
      | some next =>
          obtain ⟨job, stage, hmails⟩ := jobMails_of_jobStep? hnext hnodup
          exact .job rfl hmails

/-- **What a move does to mails** is one of these. -/
theorem mailsGo_moved (service : Service) (move : Move)
    (hnodup : ∀ project, (service.registry.subscribers project).Nodup) :
    MailsGo service move (service.moved move) := by
  cases move with
  | step party => exact service.mailsGo_step party hnodup
  | openSession capacity => exact service.mailsGo_openSession capacity
  | authenticate number credential =>
      exact .rests (mails_withIdle fun session h hidle => mails_beginCheck h hidle _) nofun
  | handle number message =>
      exact .rests (mails_withIdle fun session h hidle => mails_beginHandle h hidle _) nofun
  | close number =>
      refine .rests (mails_withIdle fun session h hidle => mails_endSession h hidle ?_) nofun
      exact fun _ _ => rfl
  | drop number =>
      refine .rests (mails_withIdle fun session h hidle => mails_endSession h hidle ?_) nofun
      exact fun session hfree => session.mail_of_idle hfree
  | takeMessage number => exact service.mailsGo_takeMessage number
  | hangUp number => exact mailsGo_updateSession (·.close) nofun fun _ => .hangsUp
  | post number message => exact mailsGo_updateSession (·.offer message) nofun fun _ => .posts message
  | importContainer project vendor format bytes =>
      exact .rests (service.mails_importContainer project vendor format bytes) nofun
  | merge | startAnnouncement | wait | listen | access => exact .rests rfl nofun

end Service

end PlcTags
