import PlcTags.Proofs.Service.News

/-!
# Sessions that lack room

A session that joins a project keeps the lock of the project until there is room for the tags
in its own outbox.  If its queue is full, or will be once those in front of it have had their
room, then there is none until its client takes something out (`Outbox.LacksRoom`): whatever
parties do until then, the session keeps the lock (`IsStuck.after`), and whoever stands in
line for the project stays there (`IsStuck.mem_after`).
-/

namespace PlcTags

open Live

/-! ## Room -/

namespace Live.Outbox

variable {outbox later : Outbox} {party other : Party} {message : ServerMessage}

/-- How many wait for room before a party does. -/
def ahead (outbox : Outbox) (party : Party) : Nat :=
  (outbox.waiting.takeWhile (·.1 != party)).length

/-- There will be no room for a party until somebody takes messages out. -/
structure LacksRoom (outbox : Outbox) (party : Party) : Prop where
  isOpen : outbox.isOpen = true
  full : outbox.capacity ≤ outbox.queue.length + outbox.ahead party

theorem ahead_le (outbox : Outbox) (party : Party) :
    outbox.ahead party ≤ outbox.waiting.length :=
  (List.takeWhile_sublist _).length_le

theorem LacksRoom.hasRoom (h : outbox.LacksRoom party) : outbox.hasRoom = false := by
  have hfull := h.full
  have hle := outbox.ahead_le party
  simp only [Outbox.hasRoom, decide_eq_false_iff_not]
  omega

theorem LacksRoom.offer_eq (h : outbox.LacksRoom party) (message : ServerMessage) :
    outbox.offer message = outbox := by
  rw [offer, accepts, h.hasRoom, Bool.and_false]
  rfl

theorem LacksRoom.send_eq (h : outbox.LacksRoom party) (other : Party)
    (message : ServerMessage) : outbox.send other message =
      { outbox with waiting := outbox.waiting ++ [(other, message)] } := by
  simp [send, h.isOpen, h.hasRoom]

theorem ahead_le_ahead_concat (outbox : Outbox) (party : Party)
    (entry : Party × ServerMessage) : outbox.ahead party ≤
      { outbox with waiting := outbox.waiting ++ [entry] }.ahead party := by
  simp only [ahead, List.takeWhile_append]
  split
  · rename_i hall
    rw [hall, List.length_append]
    exact Nat.le_add_right _ _
  · exact Nat.le_refl _

theorem LacksRoom.send (h : outbox.LacksRoom party) (other : Party) (message : ServerMessage) :
    (outbox.send other message).LacksRoom party := by
  rw [h.send_eq]
  exact ⟨h.isOpen, h.full.trans (Nat.add_le_add_left (outbox.ahead_le_ahead_concat party _) _)⟩

theorem LacksRoom.isAwaitedBy_send (h : outbox.LacksRoom party) (message : ServerMessage) :
    (outbox.send party message).isAwaitedBy party = true := by
  rw [h.send_eq, isAwaitedBy_iff]
  simp

/-- Room that appears for somebody else comes out of the room in front of the party. -/
theorem ahead_of_admit? (h : outbox.admit? other = some later) (hne : other ≠ party) :
    later.queue.length + later.ahead party = outbox.queue.length + outbox.ahead party ∧
      later.capacity = outbox.capacity ∧ later.isOpen = outbox.isOpen := by
  obtain ⟨message, hwaiting, -, hlater⟩ := admit?_eq_some_iff.mp h
  have hqueue : later.queue = outbox.queue ++ [message] := by rw [hlater]
  have hahead : outbox.ahead party = later.ahead party + 1 := by
    rw [ahead, hwaiting, List.takeWhile_cons_of_pos (by simpa using hne)]
    rfl
  refine ⟨?_, by rw [hlater], by rw [hlater]⟩
  rw [hqueue, hahead, List.length_append, List.length_singleton]
  omega

theorem LacksRoom.admit? (h : outbox.LacksRoom party) (hadmits : outbox.admit? other = some later)
    (hne : other ≠ party) : later.LacksRoom party := by
  obtain ⟨hsum, hcapacity, hopen⟩ := ahead_of_admit? hadmits hne
  refine ⟨hopen.trans h.isOpen, ?_⟩
  rw [hsum, hcapacity]
  exact h.full

theorem LacksRoom.admit?_eq_none (h : outbox.LacksRoom party) : outbox.admit? party = none := by
  cases hadmits : outbox.admit? party with
  | none => rfl
  | some later =>
      obtain ⟨message, hwaiting, hroom, -⟩ := admit?_eq_some_iff.mp hadmits
      have hfull := h.full
      rw [ahead, hwaiting, List.takeWhile_cons_of_neg (by simp), List.length_nil] at hfull
      omega

end Live.Outbox

namespace Service

variable {service next : Service} {number index : Nat} {party : Party} {project : Int}
  {session : Session} {job : Job} {stage : Stage}

/-! ## Steps of parties -/

/-- The service after these parties have gone on, one after the other; a party that cannot go
on does not. -/
def after (service : Service) (parties : List Party) : Service :=
  parties.foldl (fun service party => service.moved (.step party)) service

theorem after_append (service : Service) (first second : List Party) :
    service.after (first ++ second) = (service.after first).after second :=
  List.foldl_append

/-- What holds at every moment of a run. -/
structure Sound (service : Service) : Prop where
  tidy : service.registry.IsTidy
  seated : service.Seated
  inLine : service.InLine
  patient : service.Patient

theorem Sound.moved (h : service.Sound) (move : Move) : (service.moved move).Sound where
  tidy := (service.happens_moved move).isTidy h.tidy
  seated := h.seated.happens (service.happens_moved move)
  inLine := h.inLine.happens (service.happens_moved move)
  patient := h.patient.mailsGo (service.mailsGo_moved move h.tidy.nodup_subscribers)
    (service.happens_moved move).jobsGo

theorem Sound.after (h : service.Sound) (parties : List Party) : (service.after parties).Sound := by
  induction parties generalizing service with
  | nil => exact h
  | cons party parties ih => exact ih (h.moved _)

theorem Run.sound (run : Run) (moment : ℕ) : (run.state moment).Sound :=
  ⟨run.isTidy moment, run.seated moment, run.inLine moment, run.patient moment⟩

/-! ## Sessions that lack room -/

/-- A session that holds the lock of a project lacks room for its tags. -/
inductive IsStuck (service : Service) (number : Nat) (project : Int) : Prop where
  | registers {outbox : Outbox} {tags : List StoredTag}
      (hmail : service.mails[number]? = some ⟨outbox, some (.registering project tags)⟩)
      (hroom : outbox.LacksRoom (.session number))
  | greets {outbox : Outbox}
      (hmail : service.mails[number]? = some ⟨outbox, some (.greeting project)⟩)
      (hroom : outbox.LacksRoom (.session number))

theorem IsStuck.held (h : service.IsStuck number project) :
    service.announcementHeld (.session number) = some project := by
  cases h with
  | registers hmail => exact announcementHeld_of_welcome hmail (.inl ⟨_, rfl⟩)
  | greets hmail => exact announcementHeld_of_welcome hmail (.inr rfl)

theorem JobMail.lacksRoom {outbox later : Outbox} {other : Nat}
    (hgo : service.JobMail index job stage number outbox later)
    (h : outbox.LacksRoom (.session other)) : later.LacksRoom (.session other) := by
  have hdelivered : service.delivered job number outbox = outbox := by
    unfold delivered
    split
    · split
      · exact h.offer_eq _
      · rfl
    · rfl
  cases hgo with
  | rests => rwa [hdelivered]
  | tells =>
      rw [hdelivered]
      exact h.send _ _
  | admits hpass hsession hstage houtbox => exact h.admit? houtbox nofun

theorem MailsGo.isStuck (hgo : MailsGo service (.step party) next) (hpatient : service.Patient)
    (h : service.IsStuck number project) : next.IsStuck number project := by
  cases h with
  | registers hmail hroom =>
      obtain ⟨later, hlater, hstep⟩ := hgo.getElem? hmail
      cases hstep with
      | rests => exact .registers hlater hroom
      | goes hgo =>
          cases hgo with
          | registers hwaits => exact .greets hlater (hroom.send _ _)
          | joins hgoes => cases hgoes.symm.trans (hroom.isAwaitedBy_send _)
      | job hmove hsteps hgo => exact .registers hlater (hgo.lacksRoom hroom)
  | greets hmail hroom =>
      obtain ⟨later, hlater, hstep⟩ := hgo.getElem? hmail
      cases hstep with
      | rests => exact .greets hlater hroom
      | goes hgo =>
          cases hgo with
          | greets houtbox => cases hroom.admit?_eq_none.symm.trans houtbox
          | unheard hheard =>
              cases hheard.symm.trans ((hpatient.inOrder hmail).greets rfl hroom.isOpen)
      | job hmove hsteps hgo => exact .greets hlater (hgo.lacksRoom hroom)

theorem IsStuck.moved (h : service.IsStuck number project) (hsound : service.Sound)
    (party : Party) : (service.moved (.step party)).IsStuck number project :=
  (service.mailsGo_moved (.step party) hsound.tidy.nodup_subscribers).isStuck hsound.patient h

/-- **A session that lacks room keeps the lock** until somebody else acts. -/
theorem IsStuck.after (h : service.IsStuck number project) (hsound : service.Sound)
    (parties : List Party) : (service.after parties).IsStuck number project := by
  induction parties generalizing service with
  | nil => exact h
  | cons party parties ih => exact ih (h.moved hsound party) (hsound.moved _)

/-! ## Those who stand in line -/

/-- A session stands in line for a project because of its call. -/
theorem call_of_wanted (h : service.announcementWanted (.session number) = some project) :
    ∃ session, service.sessions[number]? = some session ∧
      (session.call = some (.joining project) ∨
        (∃ tags, session.call = some (.registering project tags)) ∨
        session.call = some (.greeting project)) := by
  obtain ⟨standing, hstanding, hwants⟩ := Option.bind_eq_some_iff.mp h
  obtain ⟨session, hsession, rfl⟩ := exists_of_getElem?_standings hstanding
  exact ⟨session, hsession, Standing.announcementWanted_iff.mp hwants⟩

/-- A job stands in line for its project while it announces it. -/
theorem job_of_wanted (h : service.announcementWanted (.job number) = some project) :
    ∃ job, service.jobs[number]? = some job ∧ job.project = project ∧
      (job.stage.rank = 5 ∨ job.stage.rank = 6) := by
  obtain ⟨job, hjob, hwants⟩ := Option.bind_eq_some_iff.mp h
  obtain ⟨hrank, hproject⟩ := Option.ite_none_right_eq_some.mp hwants
  exact ⟨job, hjob, Option.some.inj hproject, hrank⟩

theorem moved_of_step? (h : service.step? party = some next) :
    service.moved (.step party) = next := by
  rw [moved, h, Option.getD_some]

/-- Whoever waits for its turn does not go on. -/
theorem InLine.step?_eq_none (h : service.InLine)
    (hmem : (project, party) ∈ service.announcements.line)
    (hfirst : service.announcements.holder? project ≠ some party) : service.step? party = none := by
  have hwanted := h.announcements.mem_iff.mp hmem
  have hunheld : service.announcementHeld party ≠ some project :=
    fun hheld => hfirst (h.announcements.first hheld)
  have hturn : ¬ service.announcements.isHeldBy project party = true := by
    rwa [Locks.isHeldBy, beq_iff_eq]
  cases party with
  | session number =>
      obtain ⟨session, hsession, hcall | ⟨tags, hcall⟩ | hcall⟩ := call_of_wanted hwanted
      · rw [step?, sessionStep?, hsession, Option.bind_eq_bind, Option.bind_some, hcall,
          Option.bind_eq_bind, Option.bind_some]
        exact if_neg hturn
      · have hmail := getElem?_mails hsession
        rw [session.mail_of_call hcall rfl] at hmail
        exact absurd (announcementHeld_of_welcome hmail (.inl ⟨_, rfl⟩)) hunheld
      · have hmail := getElem?_mails hsession
        rw [session.mail_of_call hcall rfl] at hmail
        exact absurd (announcementHeld_of_welcome hmail (.inr rfl)) hunheld
  | job number =>
      obtain ⟨job, hjob, rfl, hrank | hrank⟩ := job_of_wanted hwanted
      · rw [step?, jobStep?, hjob, Option.bind_eq_bind, Option.bind_some]
        cases hstage : job.stage with
        | announcing => exact if_neg hturn
        | _ => simp [hstage, Stage.rank] at hrank
      · rw [(wanted_of_getElem? hjob).2.2.2, Job.announcementHeld, if_pos hrank] at hunheld
        exact absurd rfl hunheld

/-- What a step of a party leaves of the lines: it gets in line, or goes. -/
inductive LineGo (service : Service) (party : Party) : Locks → Prop where
  | stays : LineGo service party service.announcements
  | asks (project : Int) : LineGo service party (service.announcements.ask project party)
  | leaves (project : Int) : LineGo service party (service.announcements.release project party)

theorem Conduct.lineGo {standing later : Standing} {isEnd : Bool} {registry : Registry Nat}
    {announcements : Locks}
    (h : Conduct service number standing isEnd later registry announcements) :
    LineGo service (.session number) announcements := by
  cases h with
  | asks | moves => exact .asks _
  | fails | joins | greets => exact .leaves _
  | _ => exact .stays

theorem Passage.lineGo {before after : Nat} {merges announcements : Locks}
    (h : Passage service number job before after merges announcements) :
    LineGo service (.job number) announcements := by
  cases h with
  | announces => exact .asks _
  | completes => exact .leaves _
  | _ => exact .stays

theorem lineGo_moved (service : Service) (party : Party) :
    LineGo service party (service.moved (.step party)).announcements := by
  cases hstep : service.step? party with
  | none =>
      rw [moved, hstep]
      exact .stays
  | some next =>
      rw [moved_of_step? hstep]
      cases party with
      | session number =>
          obtain ⟨_, _, -, hconduct, -⟩ := conducts_of_sessionStep? hstep
          exact hconduct.lineGo
      | job number =>
          obtain ⟨job, -, hprogress⟩ := progress_of_jobStep? hstep
          obtain ⟨stage, -, hpassage⟩ := passes_of_progress hprogress
          exact hpassage.lineGo

/-- The others stay in line. -/
theorem LineGo.mem {announcements : Locks} {other : Party}
    (h : LineGo service party announcements)
    (hmem : (project, other) ∈ service.announcements.line) (hne : other ≠ party) :
    (project, other) ∈ announcements.line := by
  cases h with
  | stays => exact hmem
  | asks => exact List.mem_append_left _ hmem
  | leaves => exact (List.mem_erase_of_ne (by simp [hne])).mpr hmem

/-- Nobody goes while a session that lacks room has the lock. -/
theorem IsStuck.mem_moved (h : service.IsStuck number project) (hsound : service.Sound)
    {other : Party} (hmem : (project, other) ∈ service.announcements.line) (party : Party) :
    (project, other) ∈ (service.moved (.step party)).announcements.line := by
  by_cases hother : other = party
  · subst hother
    have hfirst := hsound.inLine.announcements.first h.held
    by_cases hown : other = .session number
    · subst hown
      have hlater := (hsound.moved (.step (.session number))).inLine.announcements
      exact Locks.mem_line_of_holder? (hlater.first (h.moved hsound _).held)
    · rw [Service.moved, hsound.inLine.step?_eq_none hmem]
      · exact hmem
      · rw [hfirst]
        exact fun heq => hown (Option.some.inj heq).symm
  · exact (service.lineGo_moved party).mem hmem hother

/-- **Nobody in line goes without a client while a session that lacks room has the lock.** -/
theorem IsStuck.mem_after (h : service.IsStuck number project) (hsound : service.Sound)
    (hmem : (project, party) ∈ service.announcements.line) (parties : List Party) :
    (project, party) ∈ (service.after parties).announcements.line := by
  induction parties generalizing service with
  | nil => exact hmem
  | cons first parties ih =>
      exact ih (h.moved hsound first) (hsound.moved _) (h.mem_moved hsound hmem first)

end Service

end PlcTags
