import PlcTags.Proofs.Service.News
import PlcTags.Proofs.Service.Replies

/-!
# Tags that are told have been listed

Whoever is about to tell a session of a project has listed it before, and the session has
been told of no project since (`Knows.listed`).  So of two messages with the tags of
projects the later one has been listed after the earlier one was put into the queue.
-/

namespace PlcTags.Service

open Live

variable {service next : Service} {number index : Nat} {move : Move} {party : Party}
  {project : Int} {tags : List StoredTag} {job later : Job} {report : Option MergeReport}
  {diagnostics : List Diagnostic}

/-! ## Who comes to know the tags of a project -/

/-- A session gets into a project when it is registered. -/
theorem Conduct.mem_of_mem {standing after : Standing} {isEnd : Bool} {registry : Registry Nat}
    {announcements : Locks} {other : Nat}
    (h : Conduct service number standing isEnd after registry announcements)
    (hmem : other ∈ registry.subscribers project) :
    other ∈ service.registry.subscribers project ∨
      other = number ∧ ∃ tags, standing.call = some (.registering project tags) := by
  cases h with
  | leaves | moves | closesIn => exact .inl (Registry.mem_subscribers_leave.mp hmem).1
  | registers hcall | joins hcall =>
      rcases Registry.mem_subscribers_join.mp hmem with hold | ⟨rfl, rfl⟩
      · exact .inl hold
      · exact .inr ⟨rfl, _, hcall⟩
  | _ => exact .inl hmem

theorem Happens.mem_of_mem (h : Happens service move next)
    (hmem : number ∈ next.registry.subscribers project) :
    number ∈ service.registry.subscribers project ∨
      service.announcementHeld (.session number) = some project := by
  cases h.seatsGo with
  | stay hsame => exact .inl (hsame.registry ▸ hmem)
  | conduct hconducts hend =>
      obtain ⟨standing, after, hstanding, hconduct, -⟩ := hconducts
      rcases hconduct.mem_of_mem hmem with hold | ⟨rfl, tags, hcall⟩
      · exact .inl hold
      · right
        rw [announcementHeld, hstanding, Option.bind_some, Standing.announcementHeld, hcall]
  | opened hstandings hregistry => exact .inl (hregistry ▸ hmem)

theorem Passage.before_of_delivering {before : Nat} {merges announcements : Locks}
    (h : Passage service number job before 6 merges announcements) : before = 5 := by
  cases h <;> omega

/-- A job comes to know the tags of its project when it lists it. -/
theorem lists_of_progress (h : Progress service index job next)
    (hlater : next.jobs[index]? = some later)
    (hstage : later.stage = .delivering report diagnostics tags) :
    service.Lists (.step (.job index)) (.job index) job.project tags := by
  have hranks : ∀ {stage : Stage}, next.jobs = (service.setStage index stage).jobs →
      stage.rank = 6 := by
    intro stage hjobs
    rw [hjobs] at hlater
    rw [← stage_of_setStage hlater, hstage]
    rfl
  obtain ⟨stage, hjobs, hpassage⟩ := passes_of_progress h
  rw [hranks hjobs] at hpassage
  have hrank := hpassage.before_of_delivering
  cases h with
  | @listed _ _ listing _ hturn hloads =>
      obtain ⟨-, -, rfl⟩ := Stage.delivering.inj ((stage_of_setStage hlater).symm.trans hstage)
      exact ⟨rfl, hturn, hloads⟩
  | @unlisted report diagnostics result hannouncing hturn =>
      obtain ⟨after, hafter, hled, -, -⟩ :=
        service.leads_endAnnouncement index job report diagnostics result
      rw [hranks hled] at hafter
      omega
  | superseded hpass hearly => omega
  | due _ hother | extracted _ hother | validated _ hother | loaded hother | unloaded hother
  | merged hother | finished hother | delivered hother | admitted _ hother | unheard _ hother =>
      rw [hother] at hrank
      simp [Stage.rank] at hrank

theorem Happens.delivering_or_lists (h : Happens service move next)
    (hlater : next.jobs[index]? = some later)
    (hstage : later.stage = .delivering report diagnostics tags) :
    service.jobs[index]? = some later ∨ service.Lists move (.job index) later.project tags := by
  -- No job is new and delivers.
  have hnew : ∀ {job : Job}, job.stage.rank ≠ 6 → next.jobs = service.jobs ++ [job] →
      service.jobs[index]? = some later := by
    intro job hrank hjobs
    rw [hjobs] at hlater
    refine (of_getElem?_concat hlater).resolve_right ?_
    rintro ⟨-, rfl⟩
    rw [hstage] at hrank
    exact absurd rfl hrank
  cases h with
  | nothing | wait | access => exact .inl hlater
  | @progress number job _ hjob hstep hprogress =>
      obtain ⟨stage, hjobs, -⟩ := jobs_of_passes (passes_of_progress hprogress) hjob
      by_cases hindex : number = index
      · subst hindex
        have hlists := lists_of_progress hprogress hlater hstage
        obtain ⟨hlength, -⟩ := List.getElem?_eq_some_iff.mp hjob
        rw [hjobs, List.getElem?_set_self hlength] at hlater
        obtain rfl := Option.some.inj hlater
        exact .inr hlists
      · rw [hjobs, List.getElem?_set_ne hindex] at hlater
        exact .inl hlater
  | conduct hmove hconducts hend htasks => exact .inl (htasks.jobs ▸ hlater)
  | crash hmove hconducts htasks => exact .inl (htasks.jobs ▸ hlater)
  | opened hmove hstandings hregistry hannouncements htasks => exact .inl (htasks.jobs ▸ hlater)
  | messages hmove hseats hannouncements htasks => exact .inl (htasks.jobs ▸ hlater)
  | edit => exact .inl (hnew (by simp [Stage.rank]) rfl)
  | merge => exact .inl (hnew (by simp [Stage.rank]) rfl)
  | announcement => exact .inl (hnew (by simp [Stage.rank]) rfl)

/-- A session waits with the tags of a project as it did before a job made a step. -/
theorem JobMail.mem_waiting {stage : Stage} {outbox after : Outbox} {message : ServerMessage}
    {other : Nat} (h : service.JobMail index job stage number outbox after)
    (hmem : (.session other, message) ∈ after.waiting) :
    (.session other, message) ∈ outbox.waiting := by
  cases h with
  | rests hheard => rwa [waiting_delivered] at hmem
  | @tells pass told hpass hsession hmessage hrank hwaits =>
      rcases (service.delivered job number outbox).waiting_send (.job index) told with
        hwaiting | hwaiting
      · rwa [hwaiting, waiting_delivered] at hmem
      · rw [hwaiting, waiting_delivered, List.mem_append, List.mem_singleton] at hmem
        exact hmem.resolve_right nofun
  | admits hpass hsession hstage houtbox =>
      obtain ⟨told, hwaiting, -, -⟩ := Outbox.admit?_eq_some_iff.mp houtbox
      rw [hwaiting]
      exact List.mem_cons_of_mem _ hmem

/-- A session comes to know the tags of a project when it lists it. -/
theorem MailGo.knows_or_lists {mail after : Mail} (hgo : MailGo service number move mail after)
    (hmail : service.mails[number]? = some mail) (hafter : next.mails[number]? = some after)
    (horder : InOrder service number mail)
    (h : Knows next number project tags (.session number)) :
    Knows service number project tags (.session number) ∨
      service.Lists move (.session number) project tags := by
  obtain ⟨outbox, welcome⟩ := mail
  cases h with
  | registers hnext =>
      obtain rfl := Option.some.inj (hafter.symm.trans hnext)
      -- Only a listing gives a session the tags to register with.
      cases hgo with
      | loads hturn hloads => exact .inr ⟨rfl, hturn, hloads⟩
      | takes | hangsUp | posts => exact .inl (.registers hmail)
  | greets hnext hwaits =>
      obtain rfl := Option.some.inj (hafter.symm.trans hnext)
      cases hgo with
      | @registers _ _ told hawaited =>
          rcases outbox.waiting_send (.session number) (.subscribed project told) with
            hwaiting | hwaiting
          · -- There was room for the welcome, so none waits now.
            rw [hwaiting] at hwaits
            exact absurd (List.mem_map_of_mem hwaits) (horder.not_mem nofun number)
          · rw [hwaiting, List.mem_append, List.mem_singleton] at hwaits
            rcases hwaits with hold | hnew
            · exact absurd (List.mem_map_of_mem hold) (horder.not_mem nofun number)
            · obtain ⟨-, rfl⟩ := ServerMessage.subscribed.inj (Prod.mk.inj hnew).2
              exact .inl (.registers hmail)
      | takes htakes =>
          obtain ⟨-, hlater⟩ := Outbox.take?_eq_some_iff.mp htakes
          rw [hlater] at hwaits
          exact .inl (.greets hmail hwaits)
      | hangsUp => cases hwaits
      | posts message =>
          rw [Outbox.waiting_offer] at hwaits
          exact .inl (.greets hmail hwaits)

theorem MailsGo.knows_or_lists (hgo : MailsGo service move next) (hpatient : service.Patient)
    (h : Knows next number project tags (.session number)) :
    Knows service number project tags (.session number) ∨
      service.Lists move (.session number) project tags := by
  cases h with
  | registers hlater =>
      rcases hgo.of_getElem? hlater with ⟨⟨outbox, welcome⟩, hmail, hstep⟩ | ⟨hnew, -⟩
      · cases hstep with
        | rests | job => exact .inl (.registers hmail)
        | goes hgo =>
            exact hgo.knows_or_lists hmail hlater (hpatient.inOrder hmail) (.registers hlater)
      · cases hnew
  | greets hlater hwaits =>
      rcases hgo.of_getElem? hlater with ⟨⟨outbox, welcome⟩, hmail, hstep⟩ | ⟨hnew, -⟩
      · cases hstep with
        | rests => exact .inl (.greets hmail hwaits)
        | goes hgo =>
            exact hgo.knows_or_lists hmail hlater (hpatient.inOrder hmail) (.greets hlater hwaits)
        | job hmove hsteps hgo => exact .inl (.greets hmail (hgo.mem_waiting hwaits))
      · cases hnew

/-- **Whoever comes to know the tags of a project lists it.** -/
theorem Happens.knows_or_lists (hhappens : Happens service move next)
    (hgo : MailsGo service move next) (hpatient : service.Patient) (hline : service.InLine)
    (h : Knows next number project tags party) :
    Knows service number project tags party ∨ service.Lists move party project tags := by
  cases h with
  | registers hmail => exact hgo.knows_or_lists hpatient (.registers hmail)
  | greets hmail hwaits => exact hgo.knows_or_lists hpatient (.greets hmail hwaits)
  | @delivers index job _ _ hjob hstage hproject hmember =>
      subst hproject
      rcases hhappens.delivering_or_lists hjob hstage with hold | hlists
      · left
        refine .delivers hold hstage rfl ?_
        -- The session is not being registered while the job holds the lock.
        refine (hhappens.mem_of_mem hmember).resolve_right ?_
        intro hheld
        obtain ⟨-, -, -, hheld'⟩ := wanted_of_getElem? hold
        rw [Job.announcementHeld, hstage] at hheld'
        cases hline.announcements.eq_of_holds hheld hheld'
      · exact .inr hlists

/-! ## Who has told what it knew -/

theorem Passage.after_of_delivering {after : Nat} {merges announcements : Locks}
    (h : Passage service number job 6 after merges announcements) : 7 ≤ after := by
  cases h <;> omega

/-- A job that delivers the tags of its project is done with them. -/
theorem Happens.rank_of_delivering (h : Happens service (.step (.job index)) next)
    (hjob : service.jobs[index]? = some job)
    (hstage : job.stage = .delivering report diagnostics tags)
    (hlater : next.jobs[index]? = some later) : 7 ≤ later.stage.rank := by
  cases h with
  | nothing hstuck =>
      have hnone := hstuck index rfl
      simp [jobStep?, hjob, hstage] at hnone
  | @progress _ found _ hfound hstep hprogress =>
      obtain rfl := Option.some.inj (hjob.symm.trans hfound)
      obtain ⟨stage, hjobs, hpassage⟩ := passes_of_progress hprogress
      rw [hjobs] at hlater
      rw [hstage] at hpassage
      rw [stage_of_setStage hlater]
      exact hpassage.after_of_delivering
  | conduct hmove | crash hmove | opened hmove | messages hmove | merge hmove =>
      exact absurd rfl (hmove index)

theorem Happens.not_knows_of_delivering (h : Happens service (.step (.job index)) next)
    (hjob : service.jobs[index]? = some job)
    (hstage : job.stage = .delivering report diagnostics tags) {told : List StoredTag} :
    ¬ Knows next number project told (.job index) := by
  intro hknows
  cases hknows with
  | delivers hlater hdelivering hproject hmember =>
      have hrank := h.rank_of_delivering hjob hstage hlater
      rw [hdelivering] at hrank
      exact absurd hrank (by simp [Stage.rank])

/-! ## The history of a queue -/

/-- What a move puts into the queue of a session. -/
def added (service next : Service) (number : Nat) : List ServerMessage :=
  (next.queue number).drop (service.queue number).length

variable {before after : List ServerMessage}

/-- What a move tells a session of projects. -/
inductive NewsGo (service : Service) (number : Nat) (move : Move) (next : Service) :
    List ServerMessage → Prop where
  | quiet (hmove : ∀ index, move = .step (.job index) → next = service)
      (hunheard : JoinsUnheard service number next) : NewsGo service number move next []
  | welcomes {project : Int} {tags : List StoredTag} (hmove : move = .step (.session number))
      (hknows : Knows service number project tags (.session number))
      (hended : ∃ later, next.mails[number]? = some later ∧ later.welcome = none) :
      NewsGo service number move next [.subscribed project tags]
  | job {index : Nat} {job : Job} {stage : Stage} (hmove : move = .step (.job index))
      (hsteps : service.Steps index job stage next)
      (hunheard : JoinsUnheard service number next) :
      NewsGo service number move next (service.tidings job number)

theorem filter_of_quiet {added : List ServerMessage}
    (h : ∀ message ∈ added, message.project? = none) :
    added.filter (·.project?.isSome) = [] := by
  rw [List.filter_eq_nil_iff]
  intro message hmessage
  simp [h message hmessage]

theorem filter_tidings (service : Service) (job : Job) (number : Nat) :
    (service.tidings job number).filter (·.project?.isSome) = service.tidings job number := by
  unfold tidings
  split
  · split <;> rfl
  · rfl

theorem QueueGo.newsGo (h : QueueGo service number move next before after) :
    NewsGo service number move next
      ((after.drop before.length).filter (·.project?.isSome)) := by
  cases h with
  | quiet hquiet hmove hunheard =>
      rw [List.drop_left, filter_of_quiet hquiet]
      exact .quiet hmove hunheard
  | takes hqueue hmove hunheard =>
      rw [hqueue, List.drop_eq_nil_of_le (by simp)]
      exact .quiet (fun index heq => absurd heq (hmove index)) hunheard
  | welcomes hmove hknows hended =>
      rw [List.drop_left]
      exact .welcomes hmove hknows hended
  | job hmove hsteps hquiet hunheard =>
      rw [List.drop_left, List.filter_append, filter_of_quiet hquiet, List.append_nil,
        filter_tidings]
      exact .job hmove hsteps hunheard

/-- A message with tags of a project that a party has listed. -/
inductive Bears (number : Nat) (project : Int) (tags : List StoredTag) :
    Party → ServerMessage → Prop where
  | welcome : Bears number project tags (.session number) (.subscribed project tags)
  | update {index : Nat} : Bears number project tags (.job index) (.tagsUpdated project tags)

/-- What a job tells it has listed. -/
theorem knows_of_tidings {message : ServerMessage} (hjob : service.jobs[index]? = some job)
    (h : message ∈ service.tidings job number) :
    ∃ tags, service.tidings job number = [message] ∧ message = .tagsUpdated job.project tags ∧
      Knows service number job.project tags (.job index) ∧
      ∃ report diagnostics, job.stage = .delivering report diagnostics tags := by
  unfold tidings at h ⊢
  split at h
  · rename_i report diagnostics tags hstage
    simp only [hstage]
    split at h
    · rename_i hreceives
      obtain rfl := List.mem_singleton.mp h
      exact ⟨tags, if_pos hreceives, rfl, .delivers hjob hstage rfl hreceives.1, report,
        diagnostics, rfl⟩
    · cases h
  · cases h

/-- A session is told one thing at a time, by somebody who knew it and is done with it. -/
theorem NewsGo.told {news : List ServerMessage} {message : ServerMessage}
    (h : NewsGo service number move next news) (hhappens : Happens service move next)
    (hmessage : message ∈ news) :
    news = [message] ∧ ∃ party project tags, move = .step party ∧
      Bears number project tags party message ∧ Knows service number project tags party ∧
      ∀ project tags, ¬ Knows next number project tags party := by
  cases h with
  | quiet => cases hmessage
  | @welcomes project tags hmove hknows hended =>
      obtain rfl := List.mem_singleton.mp hmessage
      obtain ⟨later, hlater, hnone⟩ := hended
      exact ⟨rfl, _, project, tags, hmove, .welcome, hknows,
        fun _ _ => not_knows_of_welcome hlater hnone⟩
  | @job index job stage hmove hsteps hunheard =>
      subst hmove
      obtain ⟨tags, hnews, rfl, hknows, report, diagnostics, hstage⟩ :=
        knows_of_tidings hsteps.before hmessage
      exact ⟨hnews, _, _, tags, rfl, .update, hknows,
        fun _ _ => hhappens.not_knows_of_delivering hsteps.before hstage⟩

namespace Run

/-- What is put into the queue of a session at a moment. -/
def queued (run : Run) (number moment : ℕ) : List ServerMessage :=
  (run.state moment).added (run.state (moment + 1)) number

/-- What a session is told of projects at a moment. -/
def news (run : Run) (number moment : ℕ) : List ServerMessage :=
  (run.queued number moment).filter (·.project?.isSome)

/-- Whoever answers a client puts the last answer of its session into its outbox, or an error,
and nothing else. -/
def Answers (run : Run) : Prop :=
  ∀ moment number message, run.moves moment = .post number message →
    (∃ text, message = .error text) ∨ ∃ session,
      (run.state moment).sessions[number]? = some session ∧ session.reply = some message

variable {run : Run} {moment : ℕ} {message : ServerMessage}

theorem Answers.project?_eq_none (hanswers : run.Answers) {number : Nat}
    (hmove : run.moves moment = .post number message) : message.project? = none := by
  obtain ⟨text, rfl⟩ | ⟨session, hsession, hreply⟩ := hanswers moment number message hmove
  · rfl
  · exact run.answersPlainly moment number session hsession message hreply

theorem queueGo (hanswers : run.Answers) (number moment : ℕ) :
    QueueGo (run.state moment) number (run.moves moment) (run.state (moment + 1))
      ((run.state moment).queue number) ((run.state (moment + 1)).queue number) :=
  (run.mailsGo moment).queueGo (run.patient moment)
    (fun _ _ hmove => hanswers.project?_eq_none hmove) number

theorem newsGo (hanswers : run.Answers) (number moment : ℕ) :
    NewsGo (run.state moment) number (run.moves moment) (run.state (moment + 1))
      (run.news number moment) :=
  (queueGo hanswers number moment).newsGo

end Run

/-- **Who is about to tell a session of a project has listed it, and the session has been
told nothing since.** -/
theorem Knows.listed {run : Run} {moment : ℕ} (hanswers : run.Answers)
    (h : Knows (run.state moment) number project tags party) :
    ∃ listed < moment, Lists (run.state listed) (run.moves listed) party project tags ∧
      ∀ between, listed ≤ between → between < moment → run.news number between = [] := by
  induction moment with
  | zero =>
      cases h with
      | registers hmail | greets hmail =>
          rw [mails, Run.sessions_zero] at hmail
          cases hmail
      | delivers hjob =>
          rw [Run.jobs_zero] at hjob
          cases hjob
  | succ moment ih =>
      have hhappens := run.happens moment
      have hnews := Run.newsGo hanswers number moment
      rcases hhappens.knows_or_lists (run.mailsGo moment) (run.patient moment) (run.inLine moment) h
        with hknows | hlists
      · obtain ⟨listed, hlt, hlists, hsilent⟩ := ih hknows
        refine ⟨listed, Nat.lt_succ_of_lt hlt, hlists, ?_⟩
        intro between hle hbetween
        rcases Nat.lt_succ_iff_lt_or_eq.mp hbetween with hearlier | rfl
        · exact hsilent between hle hearlier
        · -- Nobody else could have told the session anything.
          refine List.eq_nil_iff_forall_not_mem.mpr fun message hmessage => ?_
          obtain ⟨-, other, _, _, -, -, hother, hdone⟩ := hnews.told hhappens hmessage
          have hsame := hknows.party_eq hother (run.inLine _) (run.seated _)
          subst hsame
          exact hdone _ _ h
      · refine ⟨moment, Nat.lt_succ_self moment, hlists, ?_⟩
        intro between hle hbetween
        obtain rfl := Nat.le_antisymm (Nat.lt_succ_iff.mp hbetween) hle
        refine List.eq_nil_iff_forall_not_mem.mpr fun message hmessage => ?_
        obtain ⟨-, other, _, _, hmove, -, hother, hdone⟩ := hnews.told hhappens hmessage
        obtain rfl := Move.step.inj (hmove.symm.trans hlists.move)
        exact hdone _ _ h

end PlcTags.Service
