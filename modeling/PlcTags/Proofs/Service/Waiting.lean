import PlcTags.Proofs.Service.Mails
import PlcTags.Proofs.Service.Membership

/-!
# Who waits for room

Only two kinds of parties wait for room in an outbox: the session itself, which has joined
a project and waits with its tags, and passes of the session, which have ended and wait
with what they have to say (`Awaits`).  Each of them waits once.  So nobody waits for room
in the outbox of anybody else.
-/

namespace PlcTags

open Live

/-! ## Outboxes -/

namespace Live.Outbox

variable {outbox later : Outbox} {party : Party} {message : ServerMessage}

theorem isAwaitedBy_iff :
    outbox.isAwaitedBy party = true ↔ party ∈ outbox.waiting.map Prod.fst := by
  simp [isAwaitedBy]

@[simp] theorem waiting_offer (outbox : Outbox) (message : ServerMessage) :
    (outbox.offer message).waiting = outbox.waiting := by
  unfold offer
  split <;> rfl

@[simp] theorem isOpen_offer (outbox : Outbox) (message : ServerMessage) :
    (outbox.offer message).isOpen = outbox.isOpen := by
  unfold offer
  split <;> rfl

theorem send_of_closed (h : outbox.isOpen = false) : outbox.send party message = outbox := by
  simp [send, h]

@[simp] theorem isOpen_send (outbox : Outbox) (party : Party) (message : ServerMessage) :
    (outbox.send party message).isOpen = outbox.isOpen := by
  unfold send
  split
  · rfl
  · split <;> rfl

/-- A message that is sent gets in line, and is the only thing that does. -/
theorem waiting_send (outbox : Outbox) (party : Party) (message : ServerMessage) :
    (outbox.send party message).waiting = outbox.waiting ∨
      (outbox.send party message).waiting = outbox.waiting ++ [(party, message)] := by
  unfold send
  split
  · exact .inl rfl
  · split
    · exact .inl rfl
    · exact .inr rfl

/-- A party that does not wait has put its message in, or nobody takes messages out. -/
theorem eq_of_send (h : (outbox.send party message).isAwaitedBy party = false) :
    (outbox.send party message).waiting = outbox.waiting := by
  rcases outbox.waiting_send party message with hsame | hwaits
  · exact hsame
  · rw [Bool.eq_false_iff, ne_eq, isAwaitedBy_iff, hwaits] at h
    simp at h

theorem take?_eq_some_iff : outbox.take? = some (message, later) ↔
    outbox.queue = message :: later.queue ∧ later = { outbox with queue := later.queue } := by
  unfold take?
  split
  · rename_i first rest hqueue
    constructor
    · intro h
      obtain ⟨rfl, rfl⟩ := Prod.mk.inj (Option.some.inj h)
      exact ⟨hqueue, rfl⟩
    · rintro ⟨hfirst, hlater⟩
      obtain ⟨rfl, rfl⟩ := List.cons.inj (hqueue.symm.trans hfirst)
      rw [← hlater]
  · rename_i hqueue
    simp [hqueue]

theorem admit?_eq_some_iff : outbox.admit? party = some later ↔
    ∃ message, outbox.waiting = (party, message) :: later.waiting ∧
      outbox.queue.length < outbox.capacity ∧
      later = { outbox with queue := outbox.queue ++ [message], waiting := later.waiting } := by
  unfold admit?
  split
  · rename_i first message rest hwaiting
    rw [Option.ite_none_right_eq_some, hwaiting]
    constructor
    · rintro ⟨⟨rfl, hroom⟩, h⟩
      obtain rfl := Option.some.inj h
      exact ⟨message, rfl, hroom, rfl⟩
    · rintro ⟨other, hfirst, hroom, hlater⟩
      obtain ⟨hentry, hrest⟩ := List.cons.inj hfirst
      obtain ⟨rfl, rfl⟩ := Prod.mk.inj hentry
      exact ⟨⟨rfl, hroom⟩, by rw [hlater, hrest]⟩
  · rename_i hwaiting
    simp [hwaiting]

/-- Nobody waits for room in an outbox that has been closed. -/
def IsSettled (outbox : Outbox) : Prop :=
  outbox.isOpen = false → outbox.waiting = []

theorem IsSettled.offer (h : outbox.IsSettled) (message : ServerMessage) :
    (outbox.offer message).IsSettled := by
  unfold IsSettled
  rwa [isOpen_offer, waiting_offer]

theorem IsSettled.send (h : outbox.IsSettled) (party : Party) (message : ServerMessage) :
    (outbox.send party message).IsSettled := by
  intro hclosed
  rw [isOpen_send] at hclosed
  rw [send_of_closed hclosed]
  exact h hclosed

theorem IsSettled.take? (h : outbox.IsSettled) (htakes : outbox.take? = some (message, later)) :
    later.IsSettled := by
  obtain ⟨-, hlater⟩ := take?_eq_some_iff.mp htakes
  rw [hlater]
  exact h

/-- Room appears for nobody in a closed outbox. -/
theorem IsSettled.admit? (h : outbox.IsSettled) (hadmits : outbox.admit? party = some later) :
    later.IsSettled := by
  obtain ⟨first, hwaiting, -, hlater⟩ := admit?_eq_some_iff.mp hadmits
  intro hclosed
  rw [hlater] at hclosed
  cases hwaiting.symm.trans (h hclosed)

end Live.Outbox

namespace Service

variable {service next : Service} {number index : Nat} {move : Move} {mail later : Mail}
  {job : Job} {stage : Stage} {welcome : Option Call} {entry : Party × ServerMessage}

/-! ## Entries -/

/-- Who may wait for room in the outbox of a session, and with what. -/
inductive Awaits (service : Service) (number : Nat) (welcome : Option Call) :
    Party × ServerMessage → Prop where
  | own {project : Int} {tags : List StoredTag} (hcall : welcome = some (.greeting project)) :
      Awaits service number welcome (.session number, .subscribed project tags)
  | reports {index : Nat} {job : Job} {pass : Pass} {message : ServerMessage}
      (hjob : service.jobs[index]? = some job) (hpass : job.pass? = some pass)
      (hsession : pass.session = number) (hstage : job.stage = .reporting)
      (hmessage : message.project? = none) :
      Awaits service number welcome (.job index, message)

/-- Those who wait for room in the outbox of a session. -/
structure InOrder (service : Service) (number : Nat) (mail : Mail) : Prop where
  awaits : ∀ entry ∈ mail.outbox.waiting, Awaits service number mail.welcome entry
  nodup : (mail.outbox.waiting.map Prod.fst).Nodup
  /-- A session that has joined a project waits with its tags. -/
  greets : ∀ {project}, mail.welcome = some (.greeting project) → mail.outbox.isOpen = true →
    mail.outbox.isAwaitedBy (.session number) = true

/-- Passes that have ended are there as they were. -/
def KeepsReports (service next : Service) : Prop :=
  ∀ (index : Nat) (job : Job), service.jobs[index]? = some job → job.stage = .reporting →
    next.jobs[index]? = some job

theorem JobsGo.keepsReports (h : JobsGo service move next)
    (hmove : ∀ index, move ≠ .step (.job index)) : KeepsReports service next := by
  intro index job hjob hstage
  obtain ⟨stage, hlater, -, hsame⟩ := h.getElem? hjob
  rw [hlater, hsame (hmove index)]
  rfl

theorem JobsGo.keepsReports_of_rests (h : JobsGo service move next)
    (hrests : ∀ index, move = .step (.job index) → next = service) :
    KeepsReports service next := by
  by_cases hmove : ∃ index, move = .step (.job index)
  · obtain ⟨index, hmove⟩ := hmove
    rw [hrests index hmove]
    exact fun _ _ hjob _ => hjob
  · exact h.keepsReports (not_exists.mp hmove)

theorem Awaits.mono (h : Awaits service number welcome entry) {other : Option Call}
    (hkeeps : KeepsReports service next)
    (hown : ∀ {project}, welcome = some (.greeting project) → other = welcome) :
    Awaits next number other entry := by
  cases h with
  | own hcall => exact .own ((hown hcall).trans hcall)
  | reports hjob hpass hsession hstage hmessage =>
      exact .reports (hkeeps _ _ hjob hstage) hpass hsession hstage hmessage

/-- A session waits only with the tags of the project that it has joined. -/
theorem InOrder.not_mem (h : InOrder service number mail)
    (hcall : ∀ project, mail.welcome ≠ some (.greeting project)) (other : Nat) :
    .session other ∉ mail.outbox.waiting.map Prod.fst := by
  intro hmem
  obtain ⟨⟨party, message⟩, hentry, rfl⟩ := List.mem_map.mp hmem
  cases h.awaits _ hentry with
  | own hgreeting => exact hcall _ hgreeting

/-- A session that has joined nothing, and in whose outbox the same parties wait. -/
theorem InOrder.of_waiting (h : InOrder service number mail) (hkeeps : KeepsReports service next)
    (hwaiting : later.outbox.waiting = mail.outbox.waiting)
    (hcall : ∀ project, mail.welcome ≠ some (.greeting project))
    (hlater : ∀ project, later.welcome ≠ some (.greeting project)) :
    InOrder next number later where
  awaits := by
    rw [hwaiting]
    exact fun entry hentry => (h.awaits entry hentry).mono hkeeps fun hown => absurd hown (hcall _)
  nodup := by rw [hwaiting]; exact h.nodup
  greets hown := absurd hown (hlater _)

/-- Only the queue of the session has changed. -/
theorem InOrder.of_queue (h : InOrder service number mail) (hkeeps : KeepsReports service next)
    {outbox : Outbox} (hwaiting : outbox.waiting = mail.outbox.waiting)
    (hopen : outbox.isOpen = mail.outbox.isOpen) :
    InOrder next number { mail with outbox } where
  awaits := by
    rw [hwaiting]
    exact fun entry hentry => (h.awaits entry hentry).mono hkeeps fun _ => rfl
  nodup := by rw [hwaiting]; exact h.nodup
  greets := by
    intro project hcall houtbox
    have hawaited := h.greets hcall (hopen ▸ houtbox)
    rw [Outbox.isAwaitedBy_iff] at hawaited ⊢
    rw [hwaiting]
    exact hawaited

/-! ## Sessions -/

theorem MailGo.inOrder (hgo : MailGo service number move mail later)
    (h : InOrder service number mail) (hkeeps : KeepsReports service next) :
    InOrder next number later := by
  cases hgo with
  | loads hturn hloads => exact h.of_waiting hkeeps rfl nofun nofun
  | @registers outbox project tags hwaits =>
      have hnew : Party.session number ∉ outbox.waiting.map Prod.fst := h.not_mem nofun number
      -- The welcome waits now, so there was no room for it.
      have hwaiting := (outbox.waiting_send (.session number) (.subscribed project tags)).resolve_left
        fun hsame => hnew (by rw [← hsame]; exact Outbox.isAwaitedBy_iff.mp hwaits)
      refine ⟨?_, ?_, fun _ _ => hwaits⟩
      · rw [hwaiting]
        intro entry hentry
        rcases List.mem_append.mp hentry with hold | hown
        · exact (h.awaits entry hold).mono hkeeps nofun
        · obtain rfl := List.mem_singleton.mp hown
          exact .own rfl
      · rw [hwaiting, List.map_append, List.map_singleton, ← List.concat_eq_append]
        exact h.nodup.concat hnew
  | joins hgoes => exact h.of_waiting hkeeps (Outbox.eq_of_send hgoes) nofun nofun
  | @greets outbox later project houtbox =>
      obtain ⟨message, hwaiting, -, -⟩ := Outbox.admit?_eq_some_iff.mp houtbox
      have hdistinct := h.nodup
      simp only [hwaiting, List.map_cons, List.nodup_cons] at hdistinct
      refine ⟨?_, hdistinct.2, nofun⟩
      intro entry hentry
      have hold : entry ∈ outbox.waiting := by rw [hwaiting]; exact List.mem_cons_of_mem _ hentry
      cases h.awaits entry hold with
      | own hcall => exact absurd (List.mem_map_of_mem hentry) hdistinct.1
      | reports hjob hpass hsession hstage hmessage =>
          exact .reports (hkeeps _ _ hjob hstage) hpass hsession hstage hmessage
  | @unheard outbox project hheard =>
      refine ⟨?_, h.nodup, nofun⟩
      intro entry hentry
      cases h.awaits entry hentry with
      | own hcall =>
          have hawaited := Outbox.isAwaitedBy_iff.mpr (List.mem_map_of_mem hentry)
          cases hheard.symm.trans hawaited
      | reports hjob hpass hsession hstage hmessage =>
          exact .reports (hkeeps _ _ hjob hstage) hpass hsession hstage hmessage
  | takes htakes =>
      obtain ⟨-, hlater⟩ := Outbox.take?_eq_some_iff.mp htakes
      exact h.of_queue hkeeps (by rw [hlater]) (by rw [hlater])
  | hangsUp => exact ⟨nofun, List.nodup_nil, nofun⟩
  | posts message => exact h.of_queue hkeeps (Outbox.waiting_offer ..) (Outbox.isOpen_offer ..)

/-! ## Jobs -/

theorem waiting_delivered (service : Service) (job : Job) (number : Nat) (outbox : Outbox) :
    (service.delivered job number outbox).waiting = outbox.waiting := by
  unfold delivered
  split
  · split
    · exact outbox.waiting_offer _
    · rfl
  · rfl

theorem isOpen_delivered (service : Service) (job : Job) (number : Nat) (outbox : Outbox) :
    (service.delivered job number outbox).isOpen = outbox.isOpen := by
  unfold delivered
  split
  · split
    · exact outbox.isOpen_offer _
    · rfl
  · rfl

/-- The other parties wait on while a job makes a step. -/
theorem Awaits.steps (h : Awaits service number welcome entry)
    (hsteps : service.Steps index job stage next) (hne : entry.1 ≠ .job index) :
    Awaits next number welcome entry := by
  cases h with
  | own hcall => exact .own hcall
  | reports hother hpass hsession hstage hmessage =>
      have hnumber := fun heq => hne (congrArg Party.job heq)
      exact .reports ((hsteps.getElem?_of_ne hnumber).trans hother) hpass hsession hstage hmessage

/-- A pass that has not ended waits for nothing. -/
theorem InOrder.not_mem_of_rank (h : InOrder service number mail)
    (hjob : service.jobs[index]? = some job) (hrank : job.stage.rank < 7) :
    .job index ∉ mail.outbox.waiting.map Prod.fst := by
  intro hmem
  obtain ⟨⟨party, message⟩, hentry, rfl⟩ := List.mem_map.mp hmem
  cases h.awaits _ hentry with
  | reports hfound hpass hsession hstage hmessage =>
      obtain rfl := Option.some.inj (hjob.symm.trans hfound)
      rw [hstage] at hrank
      exact absurd hrank (Nat.lt_irrefl 7)

/-- Those who wait with the job do so on, and the session with them. -/
theorem InOrder.of_steps (h : InOrder service number mail)
    (hsteps : service.Steps index job stage next) {outbox : Outbox}
    (hwaiting : outbox.waiting = mail.outbox.waiting) (hopen : outbox.isOpen = mail.outbox.isOpen)
    (hnew : .job index ∉ mail.outbox.waiting.map Prod.fst) :
    InOrder next number { mail with outbox } where
  awaits := by
    rw [hwaiting]
    intro entry hentry
    refine (h.awaits entry hentry).steps hsteps ?_
    exact fun heq => hnew (List.mem_map.mpr ⟨entry, hentry, heq⟩)
  nodup := by rw [hwaiting]; exact h.nodup
  greets := by
    intro project hcall houtbox
    have hawaited := h.greets hcall (hopen ▸ houtbox)
    rw [Outbox.isAwaitedBy_iff] at hawaited ⊢
    rw [hwaiting]
    exact hawaited

theorem JobMail.inOrder {outbox : Outbox}
    (hgo : service.JobMail index job stage number mail.outbox outbox)
    (hsteps : service.Steps index job stage next) (h : InOrder service number mail) :
    InOrder next number { mail with outbox } := by
  cases hgo with
  | rests hheard =>
      refine h.of_steps hsteps (service.waiting_delivered ..) (service.isOpen_delivered ..) ?_
      intro hmem
      obtain ⟨⟨party, message⟩, hentry, rfl⟩ := List.mem_map.mp hmem
      cases h.awaits _ hentry with
      | reports hfound hpass hsession hstage hmessage =>
          obtain rfl := Option.some.inj (hsteps.before.symm.trans hfound)
          have hawaited := Outbox.isAwaitedBy_iff.mpr (List.mem_map_of_mem hentry)
          cases (hheard hpass hsession hstage).symm.trans hawaited
  | @tells pass message hpass hsession hmessage hrank hwaits =>
      have hnew := h.not_mem_of_rank hsteps.before hrank
      have hdelivered := service.waiting_delivered job number mail.outbox
      have hopen : ((service.delivered job number mail.outbox).send (.job index) message).isOpen =
          mail.outbox.isOpen := by
        rw [Outbox.isOpen_send, isOpen_delivered]
      -- There is room for the report, or it gets in line for it.
      rcases (service.delivered job number mail.outbox).waiting_send (.job index) message with
        hwaiting | hwaiting
      · exact h.of_steps hsteps (hwaiting.trans hdelivered) hopen hnew
      · rw [hdelivered] at hwaiting
        have hreporting := hwaits (Outbox.isAwaitedBy_iff.mpr (by rw [hwaiting]; simp))
        have hold : InOrder next number mail := h.of_steps hsteps rfl rfl hnew
        refine ⟨?_, ?_, ?_⟩
        · rw [hwaiting]
          intro entry hentry
          rcases List.mem_append.mp hentry with hthere | hown
          · exact hold.awaits entry hthere
          · obtain rfl := List.mem_singleton.mp hown
            exact .reports hsteps.getElem?_self hpass hsession hreporting hmessage
        · rw [hwaiting, List.map_append, List.map_singleton, ← List.concat_eq_append]
          exact h.nodup.concat hnew
        · intro project hcall houtbox
          have hawaited := h.greets hcall (hopen ▸ houtbox)
          rw [Outbox.isAwaitedBy_iff] at hawaited ⊢
          rw [hwaiting, List.map_append]
          exact List.mem_append_left _ hawaited
  | admits hpass hsession hstage houtbox =>
      obtain ⟨message, hwaiting, -, hlater⟩ := Outbox.admit?_eq_some_iff.mp houtbox
      have hdistinct := h.nodup
      rw [hwaiting, List.map_cons, List.nodup_cons] at hdistinct
      refine ⟨?_, hdistinct.2, ?_⟩
      · intro entry hentry
        have hthere : entry ∈ mail.outbox.waiting := by
          rw [hwaiting]
          exact List.mem_cons_of_mem _ hentry
        -- Only the report that has got room has gone, and no other is of the same job.
        refine (h.awaits entry hthere).steps hsteps ?_
        exact fun heq => hdistinct.1 (List.mem_map.mpr ⟨entry, hentry, heq⟩)
      · intro project hcall hopen
        have hawaited := h.greets hcall (by rw [hlater] at hopen; exact hopen)
        rw [Outbox.isAwaitedBy_iff, hwaiting, List.map_cons, List.mem_cons] at hawaited
        exact Outbox.isAwaitedBy_iff.mpr (hawaited.resolve_left nofun)

/-! ## Every moment -/

theorem MailGo.isSettled (hgo : MailGo service number move mail later)
    (h : mail.outbox.IsSettled) : later.outbox.IsSettled := by
  cases hgo with
  | loads | unheard => exact h
  | registers | joins => exact Outbox.IsSettled.send h _ _
  | greets houtbox => exact Outbox.IsSettled.admit? h houtbox
  | takes htakes => exact h.take? htakes
  | hangsUp => exact fun _ => rfl
  | posts message => exact h.offer message

theorem JobMail.isSettled {outbox after : Outbox}
    (hgo : service.JobMail index job stage number outbox after) (h : outbox.IsSettled) :
    after.IsSettled := by
  have hdelivered : (service.delivered job number outbox).IsSettled := by
    unfold Outbox.IsSettled
    rwa [isOpen_delivered, waiting_delivered]
  cases hgo with
  | rests => exact hdelivered
  | tells => exact hdelivered.send _ _
  | admits hpass hsession hstage houtbox => exact h.admit? houtbox

/-- Everybody who waits for room may do so. -/
structure Patient (service : Service) : Prop where
  inOrder : ∀ {number : Nat} {mail : Mail}, service.mails[number]? = some mail →
    InOrder service number mail
  isSettled : ∀ {number : Nat} {mail : Mail}, service.mails[number]? = some mail →
    mail.outbox.IsSettled

theorem Patient.mailsGo (h : service.Patient) (hgo : MailsGo service move next)
    (hjobs : JobsGo service move next) : next.Patient := by
  suffices hmails : ∀ (number : Nat) (mail : Mail), next.mails[number]? = some mail →
      InOrder next number mail ∧ mail.outbox.IsSettled from
    ⟨fun hmail => (hmails _ _ hmail).1, fun hmail => (hmails _ _ hmail).2⟩
  intro number mail hmail
  rcases hgo.of_getElem? hmail with ⟨before, hbefore, hstep⟩ | ⟨hwelcome, -, hwaiting⟩
  · have horder := h.inOrder hbefore
    have hsettled := h.isSettled hbefore
    cases hstep with
    | rests hrests => exact ⟨horder.of_queue (hjobs.keepsReports_of_rests hrests) rfl rfl, hsettled⟩
    | goes hgo =>
        exact ⟨hgo.inOrder horder (hjobs.keepsReports hgo.ne_step), hgo.isSettled hsettled⟩
    | job hmove hsteps hgo => exact ⟨hgo.inOrder hsteps horder, hgo.isSettled hsettled⟩
  · refine ⟨⟨?_, ?_, ?_⟩, fun _ => hwaiting⟩
    · rw [hwaiting]
      exact nofun
    · rw [hwaiting]
      exact List.nodup_nil
    · intro project hcall
      cases hwelcome.symm.trans hcall

namespace Run

theorem mailsGo (run : Run) (moment : ℕ) :
    MailsGo (run.state moment) (run.moves moment) (run.state (moment + 1)) :=
  (run.state moment).mailsGo_moved (run.moves moment) (run.isTidy moment).nodup_subscribers

/-- **Only sessions and their own passes wait for room**, at every moment of a run. -/
theorem patient (run : Run) (moment : ℕ) : (run.state moment).Patient := by
  induction moment with
  | zero =>
      constructor <;> intro number mail hmail <;> rw [mails, sessions_zero] at hmail <;> cases hmail
  | succ moment ih => exact ih.mailsGo (run.mailsGo moment) (run.happens moment).jobsGo

end Run

end Service

end PlcTags
