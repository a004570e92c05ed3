import PlcTags.Proofs.Service.Waiting

/-!
# News of projects

A message with the tags of a project comes from a party that has listed the project
(`Lists`): from the session itself, when it joins, or from a job that announces the project
to a session that has joined it.  From then until it has told the session the party holds
the lock of the project (`Knows`), and there is only one such party for a session
(`Knows.party_eq`), so the session is told nothing in between.
-/

namespace PlcTags

open Live

/-! ## Queues of outboxes -/

namespace Live.Outbox

variable {outbox : Outbox} {party : Party} {message : ServerMessage}

theorem queue_offer (outbox : Outbox) (message : ServerMessage) :
    (outbox.offer message).queue =
      outbox.queue ++ if outbox.accepts then [message] else [] := by
  unfold offer
  split
  · rfl
  · exact (List.append_nil _).symm

theorem queue_send (outbox : Outbox) (party : Party) (message : ServerMessage) :
    ∃ added, (added = [] ∨ added = [message]) ∧
      (outbox.send party message).queue = outbox.queue ++ added := by
  unfold send
  split
  · exact ⟨[], .inl rfl, (List.append_nil _).symm⟩
  · split
    · exact ⟨[message], .inr rfl, rfl⟩
    · exact ⟨[], .inl rfl, (List.append_nil _).symm⟩

/-- A party that waits has not put its message in. -/
theorem queue_of_awaited (hnew : party ∉ outbox.waiting.map Prod.fst)
    (hwaits : (outbox.send party message).isAwaitedBy party = true) :
    (outbox.send party message).queue = outbox.queue := by
  rw [isAwaitedBy_iff] at hwaits
  unfold send at hwaits ⊢
  split
  · rfl
  · split
    · rename_i hopen hroom
      rw [if_neg hopen, if_pos hroom] at hwaits
      exact absurd hwaits hnew
    · rfl

/-- A party that does not wait has put its message in, unless nobody takes messages out. -/
theorem queue_of_not_awaited (hopen : outbox.isOpen = true)
    (hgoes : (outbox.send party message).isAwaitedBy party = false) :
    (outbox.send party message).queue = outbox.queue ++ [message] := by
  unfold send at hgoes ⊢
  rw [hopen] at hgoes ⊢
  split
  · contradiction
  · split
    · rfl
    · rename_i hopen hroom
      rw [if_neg hopen, if_neg hroom] at hgoes
      simp [isAwaitedBy] at hgoes

end Live.Outbox

/-- A session wants the lock that it holds. -/
theorem Live.Standing.wanted_of_held {standing : Standing} {project : Int}
    (h : standing.announcementHeld = some project) :
    standing.announcementWanted = some project := by
  unfold announcementHeld at h
  unfold announcementWanted
  split at h <;> simp_all

namespace Service

variable {service next : Service} {number index : Nat} {move : Move} {mail later : Mail}
  {party other : Party} {project wanted : Int} {tags told : List StoredTag}
  {job : Job} {stage : Stage}

/-- The messages in the outbox of a session. -/
def queue (service : Service) (number : Nat) : List ServerMessage :=
  (service.sessions[number]?.map (·.outbox.queue)).getD []

theorem queue_eq (service : Service) (number : Nat) :
    service.queue number = (service.mails[number]?.map (·.outbox.queue)).getD [] := by
  rw [queue, mails, List.getElem?_map, Option.map_map]
  rfl

theorem queue_of_mail (h : service.mails[number]? = some mail) :
    service.queue number = mail.outbox.queue := by
  rw [queue_eq, h, Option.map_some, Option.getD_some]

theorem queue_of_getElem?_mails (h : next.mails[number]? = service.mails[number]?) :
    next.queue number = service.queue number := by
  rw [queue_eq, queue_eq, h]

/-! ## Who knows the tags of a project -/

/-- A party lists a project. -/
structure Lists (service : Service) (move : Move) (party : Party) (project : Int)
    (tags : List StoredTag) : Prop where
  move : move = .step party
  turn : service.announcements.isHeldBy project party = true
  list : service.database.list project = .ok tags

/-- A party has listed a project, and is about to tell a session of it. -/
inductive Knows (service : Service) (number : Nat) (project : Int) (tags : List StoredTag) :
    Party → Prop where
  | registers {outbox : Outbox}
      (hmail : service.mails[number]? = some ⟨outbox, some (.registering project tags)⟩) :
      Knows service number project tags (.session number)
  | greets {outbox : Outbox}
      (hmail : service.mails[number]? = some ⟨outbox, some (.greeting project)⟩)
      (hwaits : (.session number, .subscribed project tags) ∈ outbox.waiting) :
      Knows service number project tags (.session number)
  | delivers {index : Nat} {job : Job} {report : Option MergeReport}
      {diagnostics : List Diagnostic} (hjob : service.jobs[index]? = some job)
      (hstage : job.stage = .delivering report diagnostics tags) (hproject : job.project = project)
      (hmember : number ∈ service.registry.subscribers project) :
      Knows service number project tags (.job index)

theorem standing_of_welcome {outbox : Outbox} {call : Call}
    (h : service.mails[number]? = some ⟨outbox, some call⟩) :
    ∃ standing, service.standings[number]? = some standing ∧ standing.call = some call := by
  obtain ⟨session, hsession, hmail⟩ := exists_of_getElem?_mails h
  have hwelcome : session.call.filter Call.hasListed = some call := congrArg Mail.welcome hmail
  exact ⟨_, getElem?_standings hsession, (Option.filter_eq_some_iff.mp hwelcome).1⟩

theorem announcementHeld_of_welcome {outbox : Outbox} {call : Call}
    (h : service.mails[number]? = some ⟨outbox, some call⟩)
    (hcall : (∃ tags, call = .registering project tags) ∨ call = .greeting project) :
    service.announcementHeld (.session number) = some project := by
  obtain ⟨standing, hstanding, hbusy⟩ := standing_of_welcome h
  rw [announcementHeld, hstanding, Option.bind_some, Standing.announcementHeld, hbusy]
  rcases hcall with ⟨tags, rfl⟩ | rfl <;> rfl

/-- A session that holds the lock of a project has listed it, or has joined it. -/
theorem welcome_of_held (h : service.announcementHeld (.session number) = some project) :
    ∃ outbox, (∃ tags, service.mails[number]? = some ⟨outbox, some (.registering project tags)⟩) ∨
      service.mails[number]? = some ⟨outbox, some (.greeting project)⟩ := by
  obtain ⟨standing, hstanding, hheld⟩ := Option.bind_eq_some_iff.mp h
  obtain ⟨session, hsession, rfl⟩ := exists_of_getElem?_standings hstanding
  have hmail := getElem?_mails hsession
  refine ⟨session.outbox, ?_⟩
  have hcall : session.standing.call = session.call := rfl
  rw [Standing.announcementHeld, hcall] at hheld
  split at hheld
  · rename_i hcall
    obtain rfl := Option.some.inj hheld
    rw [Session.mail_of_call hcall rfl] at hmail
    exact .inl ⟨_, hmail⟩
  · rename_i hcall
    obtain rfl := Option.some.inj hheld
    rw [Session.mail_of_call hcall rfl] at hmail
    exact .inr hmail
  all_goals cases hheld

/-- Whoever knows the tags of a project holds its lock. -/
theorem Knows.held (h : Knows service number project tags party) :
    service.announcementHeld party = some project := by
  cases h with
  | registers hmail => exact announcementHeld_of_welcome hmail (.inl ⟨_, rfl⟩)
  | greets hmail hwaits => exact announcementHeld_of_welcome hmail (.inr rfl)
  | delivers hjob hstage hproject hmember =>
      obtain ⟨-, -, -, hheld⟩ := wanted_of_getElem? hjob
      rw [hheld, Job.announcementHeld, hstage, hproject]
      rfl

/-- A session that holds the lock of a project is in no other one. -/
theorem Seated.project_eq_of_held (h : service.Seated)
    (hmember : number ∈ service.registry.subscribers project)
    (hheld : service.announcementHeld (.session number) = some wanted) : project = wanted := by
  obtain ⟨standing, hstanding, hin⟩ := h.mem_iff.mp hmember
  rw [announcementHeld, hstanding, Option.bind_some] at hheld
  have hwanted : standing.announcementWanted ≠ none := by
    rw [Standing.wanted_of_held hheld]
    exact Option.some_ne_none _
  rw [(h.isSound hstanding).isIn_of_wanted hwanted] at hin
  rw [Standing.announcementHeld, hin] at hheld
  exact Option.some.inj hheld

/-- **Only one party at a time** is about to tell a session of a project. -/
theorem Knows.party_eq (h : Knows service number project tags party)
    (h' : Knows service number wanted told other) (hline : service.InLine)
    (hseated : service.Seated) : party = other := by
  have hproject : project = wanted := by
    have hheld := h.held
    have hheld' := h'.held
    cases h with
    | delivers hjob hstage hproject hmember =>
        cases h' with
        | delivers hjob' hstage' hproject' hmember' => exact hseated.project_eq hmember hmember'
        | _ => exact hseated.project_eq_of_held hmember hheld'
    | _ =>
        cases h' with
        | delivers hjob' hstage' hproject' hmember' =>
            exact (hseated.project_eq_of_held hmember' hheld).symm
        | _ => exact Option.some.inj (hheld.symm.trans hheld')
  subst hproject
  exact hline.announcements.eq_of_holds h.held h'.held

theorem not_knows_of_welcome (h : service.mails[number]? = some mail) (hnone : mail.welcome = none) :
    ¬ Knows service number project tags (.session number) := by
  intro hknows
  cases hknows with
  | registers hmail => rw [Option.some.inj (h.symm.trans hmail)] at hnone; cases hnone
  | greets hmail => rw [Option.some.inj (h.symm.trans hmail)] at hnone; cases hnone

/-! ## What is put into a queue -/

/-- What a job tells a session about its project. -/
def tidings (service : Service) (job : Job) (number : Nat) : List ServerMessage :=
  match job.stage with
  | .delivering _ _ tags =>
    if number ∈ service.registry.subscribers job.project ∧
        service.sessions[number]?.any (·.outbox.accepts) then
      [.tagsUpdated job.project tags]
    else []
  | _ => []

/-- A session that has joined a project and has told nobody of it has nobody to tell. -/
def JoinsUnheard (service : Service) (number : Nat) (next : Service) : Prop :=
  ∀ (mail later : Mail), service.mails[number]? = some mail → next.mails[number]? = some later →
    mail.welcome ≠ none → later.welcome = none → mail.outbox.isOpen = false

/-- What a move does to the queue of a session. -/
inductive QueueGo (service : Service) (number : Nat) (move : Move) (next : Service)
    (queue : List ServerMessage) : List ServerMessage → Prop where
  | quiet {added : List ServerMessage} (hquiet : ∀ message ∈ added, message.project? = none)
      (hmove : ∀ index, move = .step (.job index) → next = service)
      (hunheard : JoinsUnheard service number next) :
      QueueGo service number move next queue (queue ++ added)
  | takes {message : ServerMessage} {rest : List ServerMessage} (hqueue : queue = message :: rest)
      (hmove : ∀ index, move ≠ .step (.job index)) (hunheard : JoinsUnheard service number next) :
      QueueGo service number move next queue rest
  | welcomes {project : Int} {tags : List StoredTag} (hmove : move = .step (.session number))
      (hknows : Knows service number project tags (.session number))
      (hended : ∃ later, next.mails[number]? = some later ∧ later.welcome = none) :
      QueueGo service number move next queue (queue ++ [.subscribed project tags])
  | job {index : Nat} {job : Job} {stage : Stage} {added : List ServerMessage}
      (hmove : move = .step (.job index)) (hsteps : service.Steps index job stage next)
      (hquiet : ∀ message ∈ added, message.project? = none)
      (hunheard : JoinsUnheard service number next) :
      QueueGo service number move next queue (queue ++ (service.tidings job number ++ added))

theorem joinsUnheard_of_welcome (h : service.mails[number]? = some mail)
    (hlater : next.mails[number]? = some later)
    (hsame : mail.welcome ≠ none → later.welcome = none → mail.outbox.isOpen = false) :
    JoinsUnheard service number next := by
  intro before after hbefore hafter
  obtain rfl := Option.some.inj (h.symm.trans hbefore)
  obtain rfl := Option.some.inj (hlater.symm.trans hafter)
  exact hsame

theorem joinsUnheard_of_mails (h : next.mails[number]? = service.mails[number]?) :
    JoinsUnheard service number next := by
  intro mail later hmail hlater hbusy hnone
  obtain rfl := Option.some.inj (hmail.symm.trans (h.symm.trans hlater))
  exact absurd hnone hbusy

/-- The mail of the session is the same. -/
theorem queueGo_of_mails (h : next.mails[number]? = service.mails[number]?)
    (hmove : ∀ index, move = .step (.job index) → next = service) :
    QueueGo service number move next (service.queue number) (next.queue number) := by
  have hquiet : QueueGo service number move next (service.queue number)
      (service.queue number ++ []) :=
    .quiet (List.forall_mem_nil _) hmove (joinsUnheard_of_mails h)
  rw [List.append_nil] at hquiet
  rw [queue_of_getElem?_mails h]
  exact hquiet

theorem MailGo.queueGo (hgo : MailGo service number move mail later)
    (hmail : service.mails[number]? = some mail) (hlater : next.mails[number]? = some later)
    (horder : InOrder service number mail)
    (hpost : ∀ number message, move = .post number message → message.project? = none) :
    QueueGo service number move next mail.outbox.queue later.outbox.queue := by
  have hmove := hgo.ne_step
  have hquiet : ∀ {added : List ServerMessage}, (∀ message ∈ added, message.project? = none) →
      (mail.welcome ≠ none → later.welcome = none → mail.outbox.isOpen = false) →
        QueueGo service number move next mail.outbox.queue (mail.outbox.queue ++ added) :=
    fun hadded hsame => .quiet hadded (fun index heq => absurd heq (hmove index))
      (joinsUnheard_of_welcome hmail hlater hsame)
  have hsame : later.outbox.queue = mail.outbox.queue →
      (mail.welcome ≠ none → later.welcome = none → mail.outbox.isOpen = false) →
        QueueGo service number move next mail.outbox.queue later.outbox.queue := by
    intro hqueue hcalls
    have hnothing := hquiet (List.forall_mem_nil _) hcalls
    rw [List.append_nil] at hnothing
    rw [hqueue]
    exact hnothing
  cases hgo with
  | loads hturn hloads => exact hsame rfl fun hnone => absurd rfl hnone
  | @registers outbox project tags hwaits =>
      exact hsame (Outbox.queue_of_awaited (horder.not_mem (by simp) number) hwaits) (by simp)
  | @joins outbox project tags hgoes =>
      cases hopen : outbox.isOpen with
      | true =>
          have hwelcomes : QueueGo service number (.step (.session number)) next outbox.queue
              (outbox.queue ++ [.subscribed project tags]) :=
            .welcomes rfl (.registers hmail) ⟨_, hlater, rfl⟩
          rwa [← Outbox.queue_of_not_awaited hopen hgoes] at hwelcomes
      | false =>
          refine hsame ?_ fun _ _ => hopen
          simp [Outbox.send, hopen]
  | @greets outbox later project houtbox =>
      obtain ⟨message, hwaiting, -, hadmitted⟩ := Outbox.admit?_eq_some_iff.mp houtbox
      have hentry : (Party.session number, message) ∈ outbox.waiting := by simp [hwaiting]
      have hwelcomes : QueueGo service number (.step (.session number)) next outbox.queue
          (outbox.queue ++ [message]) := by
        -- What waits in the name of the session can only be its own welcome.
        cases horder.awaits _ hentry with
        | own hcall =>
            obtain rfl := Call.greeting.inj (Option.some.inj hcall)
            exact .welcomes rfl (.greets hmail hentry) ⟨_, hlater, rfl⟩
      rw [hadmitted]
      exact hwelcomes
  | @unheard outbox project hheard =>
      refine hsame rfl fun _ _ => ?_
      cases hopen : outbox.isOpen with
      | true => cases hheard.symm.trans (horder.greets rfl hopen)
      | false => rfl
  | takes htakes =>
      obtain ⟨hqueue, hlaterOutbox⟩ := Outbox.take?_eq_some_iff.mp htakes
      exact .takes hqueue hmove
        (joinsUnheard_of_welcome hmail hlater fun hbusy hnone => absurd hnone hbusy)
  | hangsUp => exact hsame rfl fun hbusy hnone => absurd hnone hbusy
  | posts message =>
      rw [show ({ mail with outbox := mail.outbox.offer message } : Mail).outbox.queue =
        _ from Outbox.queue_offer ..]
      refine hquiet ?_ fun hbusy hnone => absurd hnone hbusy
      intro added hadded
      split at hadded
      · obtain rfl := List.mem_singleton.mp hadded
        exact hpost number _ rfl
      · cases hadded

/-! ## Jobs -/

theorem tidings_of_none (h : service.mails[number]? = none) (job : Job) :
    service.tidings job number = [] := by
  rw [mails, List.getElem?_map, Option.map_eq_none_iff] at h
  unfold tidings
  rw [h]
  cases job.stage with
  | delivering report diagnostics tags => exact if_neg (by simp)
  | _ => rfl

theorem queue_delivered (hmail : service.mails[number]? = some mail) (job : Job) :
    (service.delivered job number mail.outbox).queue =
      mail.outbox.queue ++ service.tidings job number := by
  obtain ⟨session, hsession, rfl⟩ := exists_of_getElem?_mails hmail
  unfold delivered tidings
  rw [hsession, Option.any_some]
  cases job.stage with
  | delivering report diagnostics tags =>
      by_cases hmember : number ∈ service.registry.subscribers job.project
      · simp only [hmember, true_and, if_true, Outbox.queue_offer]
        rfl
      · simp only [hmember, false_and, if_false, List.append_nil]
  | _ => exact (List.append_nil _).symm

theorem JobMail.queueGo {outbox : Outbox}
    (hgo : service.JobMail index job stage number mail.outbox outbox)
    (hsteps : service.Steps index job stage next) (hmail : service.mails[number]? = some mail)
    (hlater : next.mails[number]? = some { mail with outbox })
    (horder : InOrder service number mail) :
    QueueGo service number (.step (.job index)) next mail.outbox.queue outbox.queue := by
  have hunheard : JoinsUnheard service number next :=
    joinsUnheard_of_welcome hmail hlater fun hbusy hnone => absurd hnone hbusy
  have hqueue := queue_delivered hmail job
  cases hgo with
  | rests hheard =>
      have hjob : QueueGo service number (.step (.job index)) next mail.outbox.queue
          (mail.outbox.queue ++ (service.tidings job number ++ [])) :=
        .job rfl hsteps (List.forall_mem_nil _) hunheard
      rwa [List.append_nil, ← hqueue] at hjob
  | @tells pass message hpass hsession hmessage hrank hwaits =>
      obtain ⟨added, hadded, hsent⟩ :=
        (service.delivered job number mail.outbox).queue_send (.job index) message
      rw [hsent, hqueue, List.append_assoc]
      refine .job rfl hsteps ?_ hunheard
      intro other hother
      rcases hadded with rfl | rfl
      · cases hother
      · rw [List.mem_singleton.mp hother, hmessage]
  | admits hpass hsession hstage houtbox =>
      obtain ⟨message, hwaiting, -, hadmitted⟩ := Outbox.admit?_eq_some_iff.mp houtbox
      have hsilent : service.tidings job number = [] := by rw [tidings, hstage]
      have hmessage : message.project? = none := by
        have hentry : (Party.job index, message) ∈ mail.outbox.waiting := by simp [hwaiting]
        cases horder.awaits _ hentry with
        | reports hfound hpass hsession hstage hmessage => exact hmessage
      have hjob : QueueGo service number (.step (.job index)) next mail.outbox.queue
          (mail.outbox.queue ++ (service.tidings job number ++ [message])) := by
        refine .job rfl hsteps ?_ hunheard
        intro other hother
        rw [List.mem_singleton.mp hother, hmessage]
      rw [hsilent, List.nil_append] at hjob
      rw [hadmitted]
      exact hjob

/-- **What a move does to the queue of a session** is one of these, if whoever answers
clients says nothing about the tags of projects. -/
theorem MailsGo.queueGo (hgo : MailsGo service move next) (hpatient : service.Patient)
    (hpost : ∀ number message, move = .post number message → message.project? = none)
    (number : Nat) :
    QueueGo service number move next (service.queue number) (next.queue number) := by
  cases hmail : service.mails[number]? with
  | some mail =>
      obtain ⟨later, hlater, hstep⟩ := hgo.getElem? hmail
      have horder := hpatient.inOrder hmail
      rw [queue_of_mail hmail, queue_of_mail hlater]
      cases hstep with
      | rests hjobs =>
          have hrests := queueGo_of_mails (hlater.trans hmail.symm) hjobs
          rwa [queue_of_mail hmail, queue_of_mail hlater] at hrests
      | goes hgo => exact hgo.queueGo hmail hlater horder hpost
      | job hmove hsteps hjob =>
          subst hmove
          exact hjob.queueGo hsteps hmail hlater horder
  | none =>
      -- Nothing is put into the queue of a session that is not there, or is new.
      have hunheard : JoinsUnheard service number next := by
        intro mail later hfound
        cases hmail.symm.trans hfound
      have hempty : service.queue number = [] := by rw [queue_eq, hmail]; rfl
      have hempty' : next.queue number = [] := by
        cases hlater : next.mails[number]? with
        | none => rw [queue_eq, hlater]; rfl
        | some later =>
            obtain ⟨mail, hfound, -⟩ | ⟨-, hqueue, -⟩ := hgo.of_getElem? hlater
            · cases hmail.symm.trans hfound
            · rw [queue_of_mail hlater, hqueue]
      rw [hempty, hempty']
      have hquiet : (∀ index, move = .step (.job index) → next = service) →
          QueueGo service number move next [] [] :=
        fun hjobs => .quiet (List.forall_mem_nil _) hjobs hunheard
      cases hgo with
      | rests hmails hjobs => exact hquiet hjobs
      | opened hmove => exact hquiet fun index heq => absurd heq (hmove index)
      | changes hown hgo => exact hquiet fun index heq => absurd heq (hgo.ne_step index)
      | @job index job stage hmove hmails =>
          have hjob : QueueGo service number move next [] ([] ++ (service.tidings job number ++ [])) :=
            .job hmove hmails.steps (List.forall_mem_nil _) hunheard
          rwa [tidings_of_none hmail] at hjob

end Service

end PlcTags
