import PlcTags.Proofs.Service.Closing
import PlcTags.Proofs.Service.Once
import PlcTags.Proofs.Service.Stuck

/-!
# Who holds up a project

Announcements of a project wait for nothing but their turn.  A session that joins it may wait
for room in its own outbox when it has the lock, so a client that takes nothing out can hold
up a project.  Nothing else does (`Run.holdsUp`): whoever has the lock gives it back without
any client, unless it is a session that lacks room (`Sound.yields`).  By induction on the line
everybody in it is served, unless a session that stands there before it lacks room
(`Sound.served`).
-/

namespace PlcTags

open Live

namespace Live.Locks

variable {locks : Locks} {project other : Int} {party first second : Party}

/-- The first in line stands before all others. -/
theorem before_of_holder? (hfirst : locks.holder? project = some first)
    (hmem : (project, party) ∈ locks.line) (hne : first ≠ party) :
    locks.Before project first party := by
  unfold holder? at hfirst
  obtain ⟨before, after, hline, hbefore⟩ := List.lookup_eq_some_iff.mp hfirst
  unfold Before
  rw [hline] at hmem ⊢
  have hafter : (project, party) ∈ after := by
    rcases List.mem_append.mp hmem with hold | hnew
    · simpa using hbefore _ hold
    · exact (List.mem_cons.mp hnew).resolve_left (by simpa using Ne.symm hne)
  exact List.sublist_append_of_sublist_right (List.singleton_sublist.mpr hafter |>.cons_cons _)

theorem Before.of_release (h : (locks.release other party).Before project first second) :
    locks.Before project first second :=
  List.Sublist.trans h List.erase_sublist

end Live.Locks

namespace Service

variable {service next : Service} {number index : Nat} {party : Party} {project : Int}
  {session : Session} {job : Job} {stage : Stage}

/-! ## Giving the lock back -/

/-- Some steps of parties let a party give the lock of a project back, or leave it without
room for the tags of the project. -/
def Yields (service : Service) (party : Party) (project : Int) : Prop :=
  ∃ parties, (service.after parties).announcements =
      service.announcements.release project party ∨
    ∃ number, party = .session number ∧ (service.after parties).IsStuck number project

theorem Yields.of_release (first : Party) (h : (service.moved (.step first)).announcements =
    service.announcements.release project party) : service.Yields party project :=
  ⟨[first], .inl h⟩

theorem Yields.of_isStuck (h : service.IsStuck number project) :
    service.Yields (.session number) project :=
  ⟨[], .inr ⟨number, rfl, h⟩⟩

theorem Yields.of_step (first : Party)
    (hsame : (service.moved (.step first)).announcements = service.announcements)
    (h : (service.moved (.step first)).Yields party project) : service.Yields party project := by
  obtain ⟨parties, h⟩ := h
  rw [hsame] at h
  exact ⟨first :: parties, h⟩

theorem moved_of_joining (hsession : service.sessions[number]? = some session)
    (hcall : session.call = some (.joining project))
    (hturn : service.announcements.isHeldBy project (.session number) = true) :
    service.moved (.step (.session number)) = service.loadForJoin number project := by
  apply moved_of_step?
  rw [step?, sessionStep?, hsession, Option.bind_eq_bind, Option.bind_some, hcall,
    Option.bind_eq_bind, Option.bind_some]
  exact if_pos hturn

theorem moved_of_registering {tags : List StoredTag}
    (hsession : service.sessions[number]? = some session)
    (hcall : session.call = some (.registering project tags)) :
    service.moved (.step (.session number)) = service.register number session project tags := by
  apply moved_of_step?
  rw [step?, sessionStep?, hsession, Option.bind_eq_bind, Option.bind_some, hcall]
  rfl

theorem moved_of_greeting (hsession : service.sessions[number]? = some session)
    (hcall : session.call = some (.greeting project)) :
    service.moved (.step (.session number)) =
      (service.greet? number session project).getD service := by
  rw [moved, step?, sessionStep?, hsession, Option.bind_eq_bind, Option.bind_some, hcall]
  rfl

/-- A pass that waits in front of the others has its report put in. -/
theorem moved_of_reporting {pass : Pass} {later : Outbox} (hjob : service.jobs[index]? = some job)
    (hpass : job.pass? = some pass) (hstage : job.stage = .reporting)
    (hsession : service.sessions[pass.session]? = some session)
    (hadmits : session.outbox.admit? (.job index) = some later) :
    service.moved (.step (.job index)) =
      (service.setSession pass.session { session with outbox := later }).setStage index
        (.ended .told) := by
  obtain ⟨message, hwaiting, -, -⟩ := Outbox.admit?_eq_some_iff.mp hadmits
  have hwaits : session.outbox.isAwaitedBy (.job index) = true := by
    rw [Outbox.isAwaitedBy, hwaiting]
    simp
  apply moved_of_step?
  rw [step?, jobStep?, hjob, Option.bind_eq_bind, Option.bind_some]
  simp only [hstage, hpass, Option.bind_eq_bind, Option.bind_some]
  rw [awaitRoom?, hsession, Option.bind_eq_bind, Option.bind_some, if_pos hwaits, hadmits]
  rfl

/-- A session that has joined a project waits for room in its own order. -/
theorem Sound.inOrder_of_greeting (h : service.Sound)
    (hsession : service.sessions[number]? = some session)
    (hcall : session.call = some (.greeting project)) :
    InOrder service number ⟨session.outbox, some (.greeting project)⟩ := by
  have hmail := getElem?_mails hsession
  rw [session.mail_of_call hcall rfl] at hmail
  exact h.patient.inOrder hmail

/-- Those who wait in front of a session that has joined go on while there is room, until it
is the turn of the session. -/
theorem Sound.yields_of_room (h : service.Sound)
    (hsession : service.sessions[number]? = some session)
    (hcall : session.call = some (.greeting project)) (hopen : session.outbox.isOpen = true)
    (hroom : session.outbox.queue.length + session.outbox.ahead (.session number) <
      session.outbox.capacity) :
    service.Yields (.session number) project := by
  -- The induction is on those who wait for room.
  induction hwaiting : session.outbox.waiting generalizing service session with
  | nil =>
      have hwaits := (h.inOrder_of_greeting hsession hcall).greets rfl hopen
      simp [Outbox.isAwaitedBy, hwaiting] at hwaits
  | cons entry rest ih =>
      have horder := h.inOrder_of_greeting hsession hcall
      have hwaits : session.outbox.isAwaitedBy (.session number) = true := horder.greets rfl hopen
      obtain ⟨first, message⟩ := entry
      obtain ⟨later, hrest, hadmits⟩ : ∃ later : Outbox, later.waiting = rest ∧
          session.outbox.admit? first = some later :=
        ⟨{ session.outbox with queue := session.outbox.queue ++ [message], waiting := rest }, rfl,
          Outbox.admit?_eq_some_iff.mpr ⟨message, hwaiting, by omega, rfl⟩⟩
      cases horder.awaits _ (hwaiting ▸ List.mem_cons_self) with
      | own =>
          refine .of_release (.session number) ?_
          rw [moved_of_greeting hsession hcall, greet?, if_pos hwaits, hadmits]
          rfl
      | @reports index job pass message hjob hpass hown hstage hmessage =>
          subst hown
          have hother : Party.job index ≠ .session pass.session := by simp
          obtain ⟨hsum, hcapacity, hsame⟩ := Outbox.ahead_of_admit? hadmits hother
          have hmoved := moved_of_reporting hjob hpass hstage hsession hadmits
          have hlength := (List.getElem?_eq_some_iff.mp hsession).1
          have hnext : (service.moved (.step (.job index))).sessions[pass.session]? =
              some { session with outbox := later } := by
            rw [hmoved]
            exact List.getElem?_set_self hlength
          refine .of_step (.job index) (by rw [hmoved]; rfl) ?_
          refine ih (h.moved _) hnext hcall (hsame.trans hopen) ?_ hrest
          show later.queue.length + later.ahead _ < later.capacity
          rw [hsum, hcapacity]
          exact hroom

/-- A session that has joined gives the lock back, unless it lacks room. -/
theorem Sound.yields_of_greeting (h : service.Sound)
    (hsession : service.sessions[number]? = some session)
    (hcall : session.call = some (.greeting project)) :
    service.Yields (.session number) project := by
  have hmail := getElem?_mails hsession
  rw [session.mail_of_call hcall rfl] at hmail
  cases hopen : session.outbox.isOpen with
  | false =>
      have hsettled : session.outbox.waiting = [] := h.patient.isSettled hmail hopen
      refine .of_release (.session number) ?_
      rw [moved_of_greeting hsession hcall, greet?, Outbox.isAwaitedBy, hsettled]
      rfl
  | true =>
      by_cases hfull : session.outbox.capacity ≤
          session.outbox.queue.length + session.outbox.ahead (.session number)
      · exact .of_isStuck (.greets hmail ⟨hopen, hfull⟩)
      · exact h.yields_of_room hsession hcall hopen (Nat.lt_of_not_le hfull)

theorem Sound.yields_of_registering {tags : List StoredTag} (h : service.Sound)
    (hsession : service.sessions[number]? = some session)
    (hcall : session.call = some (.registering project tags)) :
    service.Yields (.session number) project := by
  have hmoved := moved_of_registering hsession hcall
  have hlength := (List.getElem?_eq_some_iff.mp hsession).1
  rw [register] at hmoved
  split at hmoved
  · refine .of_step (.session number) (by rw [hmoved]; rfl) ?_
    have hnext := congrArg (·.sessions[number]?) hmoved
    exact (h.moved _).yields_of_greeting (hnext.trans (List.getElem?_set_self hlength)) rfl
  · refine .of_release (.session number) ?_
    rw [hmoved]
    rfl

theorem Sound.yields_of_joining (h : service.Sound)
    (hsession : service.sessions[number]? = some session)
    (hcall : session.call = some (.joining project))
    (hturn : service.announcements.isHeldBy project (.session number) = true) :
    service.Yields (.session number) project := by
  have hmoved := moved_of_joining hsession hcall hturn
  rw [loadForJoin] at hmoved
  split at hmoved
  · rename_i tags hloads
    have hnext : (service.moved (.step (.session number))).sessions[number]? =
        some (session.await (.registering project tags)) := by
      rw [hmoved, updateSession, List.getElem?_modify_eq, hsession]
      rfl
    refine .of_step (.session number) (by rw [hmoved]; rfl) ?_
    exact (h.moved _).yields_of_registering hnext rfl
  · refine .of_release (.session number) ?_
    rw [hmoved]
    rfl

theorem Passage.announcements_of_delivering {after : Nat} {merges announcements : Locks}
    (h : Passage service number job 6 after merges announcements) :
    announcements = service.announcements.release job.project (.job number) := by
  cases h with
  | prepares hbefore => omega
  | completes => rfl

theorem Passage.announcements_of_announcing {after : Nat} {merges announcements : Locks}
    (h : Passage service number job 5 after merges announcements) :
    after = 6 ∧ announcements = service.announcements ∨
      announcements = service.announcements.release job.project (.job number) := by
  cases h with
  | prepares hbefore => omega
  | lists => exact .inl ⟨rfl, rfl⟩
  | completes => exact .inr rfl

/-- A job whose turn it is goes on. -/
theorem passes_of_turn (hjob : service.jobs[number]? = some job)
    (hwanted : job.announcementWanted = some project)
    (hturn : service.announcements.isHeldBy project (.job number) = true) :
    service.Passes number job (service.moved (.step (.job number))) := by
  obtain ⟨next, hstep⟩ := Option.ne_none_iff_exists'.mp (jobStep?_ne_none hjob hwanted hturn)
  obtain ⟨found, hfound, hprogress⟩ := progress_of_jobStep? hstep
  obtain rfl := Option.some.inj (hjob.symm.trans hfound)
  rw [show service.moved (.step (.job number)) = next from moved_of_step? hstep]
  exact passes_of_progress hprogress

theorem yields_of_delivering (hjob : service.jobs[number]? = some job)
    (hrank : job.stage.rank = 6)
    (hturn : service.announcements.isHeldBy job.project (.job number) = true) :
    service.Yields (.job number) job.project := by
  have hwanted : job.announcementWanted = some job.project := if_pos (.inr hrank)
  obtain ⟨stage, -, hpassage⟩ := passes_of_turn hjob hwanted hturn
  rw [hrank] at hpassage
  exact .of_release (.job number) hpassage.announcements_of_delivering

/-- A job that announces a project gives the lock back with its next step or the one after
that. -/
theorem yields_of_announcing (hjob : service.jobs[number]? = some job)
    (hrank : job.stage.rank = 5)
    (hturn : service.announcements.isHeldBy job.project (.job number) = true) :
    service.Yields (.job number) job.project := by
  have hwanted : job.announcementWanted = some job.project := if_pos (.inl hrank)
  obtain ⟨stage, hjobs, hpassage⟩ := passes_of_turn hjob hwanted hturn
  rw [hrank] at hpassage
  rcases hpassage.announcements_of_announcing with ⟨hnext, hsame⟩ | hreleased
  · have hlater : (service.moved (.step (.job number))).jobs[number]? =
        some (job.withStage stage) := by
      rw [hjobs]
      exact getElem?_jobs_setStage hjob stage
    have hyields := yields_of_delivering hlater hnext (by rw [hsame]; exact hturn)
    exact .of_step (.job number) hsame hyields
  · exact .of_release (.job number) hreleased

/-- **Whoever holds the lock of a project gives it back**, unless it lacks room. -/
theorem Sound.yields (h : service.Sound)
    (hfirst : service.announcements.holder? project = some party) :
    service.Yields party project := by
  have hturn : service.announcements.isHeldBy project party = true := by
    rw [Locks.isHeldBy, hfirst]
    exact beq_self_eq_true _
  have hwanted := h.inLine.announcements.mem_iff.mp (Locks.mem_line_of_holder? hfirst)
  cases party with
  | session number =>
      obtain ⟨session, hsession, hcall | ⟨tags, hcall⟩ | hcall⟩ := call_of_wanted hwanted
      · exact h.yields_of_joining hsession hcall hturn
      · exact h.yields_of_registering hsession hcall
      · exact h.yields_of_greeting hsession hcall
  | job number =>
      obtain ⟨job, hjob, rfl, hrank | hrank⟩ := job_of_wanted hwanted
      · exact yields_of_announcing hjob hrank hturn
      · exact yields_of_delivering hjob hrank hturn

/-! ## Everybody in line -/

/-- **Whoever stands in line for a project gets its turn and goes**, unless a session that
stands there before it, or the party itself, lacks room. -/
theorem Sound.served (h : service.Sound) (hmem : (project, party) ∈ service.announcements.line) :
    ∃ parties, (project, party) ∉ (service.after parties).announcements.line ∨
      ∃ number, (service.after parties).IsStuck number project ∧
        (party = .session number ∨
          service.announcements.Before project (.session number) party) := by
  -- The induction is on how many stand in lines.
  induction hlength : service.announcements.line.length using Nat.strong_induction_on
    generalizing service with
  | _ length ih =>
      obtain ⟨first, hfirst⟩ := Locks.exists_holder? hmem
      have hin := Locks.mem_line_of_holder? hfirst
      obtain ⟨parties, hreleased | ⟨number, rfl, hstuck⟩⟩ := h.yields hfirst
      · by_cases hown : party = first
        · subst hown
          refine ⟨parties, .inl ?_⟩
          rw [hreleased]
          exact h.inLine.announcements.nodup.not_mem_erase
        · have hstill : (project, party) ∈ (service.after parties).announcements.line := by
            rw [hreleased]
            exact (List.mem_erase_of_ne (by simpa using hown)).mpr hmem
          have hshorter : (service.after parties).announcements.line.length < length := by
            rw [hreleased, ← hlength]
            exact List.length_erase_of_mem hin ▸ Nat.sub_one_lt_of_lt (List.length_pos_of_mem hin)
          obtain ⟨others, hserved | ⟨number, hstuck, hbefore⟩⟩ :=
            ih _ hshorter (h.after parties) hstill rfl
          · exact ⟨parties ++ others, .inl (by rwa [after_append])⟩
          · refine ⟨parties ++ others, .inr ⟨number, by rwa [after_append], ?_⟩⟩
            rw [hreleased] at hbefore
            exact hbefore.imp_right Locks.Before.of_release
      · refine ⟨parties, .inr ⟨number, hstuck, ?_⟩⟩
        by_cases hown : party = .session number
        · exact .inl hown
        · exact .inr (Locks.before_of_holder? hfirst hmem (Ne.symm hown))

/-- Jobs only go forward while parties go on. -/
theorem getElem?_jobs_after (hjob : service.jobs[index]? = some job) (parties : List Party) :
    ∃ stage, (service.after parties).jobs[index]? = some (job.withStage stage) ∧
      job.stage.rank ≤ stage.rank := by
  induction parties generalizing service job with
  | nil => exact ⟨job.stage, hjob, Nat.le_refl _⟩
  | cons party parties ih =>
      obtain ⟨stage, hnext, hle, -⟩ :=
        (service.happens_moved (.step party)).jobsGo.getElem? hjob
      obtain ⟨last, hlast, hle'⟩ := ih hnext
      exact ⟨last, hlast, Nat.le_trans hle hle'⟩

/-- **An announcement is made without any client**, unless a session that stands in line for
the project before it lacks room. -/
theorem Sound.completes (h : service.Sound) (hjob : service.jobs[index]? = some job)
    (hwanted : job.announcementWanted = some project) :
    ∃ parties, (∃ stage, (service.after parties).jobs[index]? = some (job.withStage stage) ∧
        7 ≤ stage.rank) ∨
      ∃ number, (service.after parties).IsStuck number project ∧
        service.announcements.Before project (.session number) (.job index) := by
  obtain ⟨hrank, hproject⟩ := Option.ite_none_right_eq_some.mp hwanted
  have hmem : (project, .job index) ∈ service.announcements.line := by
    rw [h.inLine.announcements.mem_iff, (wanted_of_getElem? hjob).2.2.1]
    exact hwanted
  obtain ⟨parties, hserved | ⟨number, hstuck, hown | hbefore⟩⟩ := h.served hmem
  · obtain ⟨stage, hlater, hle⟩ := getElem?_jobs_after hjob parties
    refine ⟨parties, .inl ⟨stage, hlater, ?_⟩⟩
    rw [(h.after parties).inLine.announcements.mem_iff, (wanted_of_getElem? hlater).2.2.1,
      Job.announcementWanted, Job.stage_withStage, Job.project_withStage] at hserved
    by_contra hearly
    exact hserved (by rw [if_pos (by omega), hproject])
  · cases hown
  · exact ⟨parties, .inr ⟨number, hstuck, hbefore⟩⟩

/-! ## Every moment -/

/-- A party waits for room in the outbox of a session. -/
def AwaitsRoom (service : Service) (party : Party) (number : Nat) : Prop :=
  ∃ session, service.sessions[number]? = some session ∧
    session.outbox.isAwaitedBy party = true

/-- A session that has joined a project waits for room for its tags. -/
def Greets (service : Service) (number : Nat) (project : Int) : Prop :=
  ∃ session, service.sessions[number]? = some session ∧
    session.call = some (.greeting project) ∧ session.outbox.isOpen = true

/-- Who waits for room with the lock of a project is a session that has joined it, and waits
for room in its own outbox. -/
theorem Sound.eq_of_awaitsRoom (h : service.Sound)
    (hturn : service.announcements.isHeldBy project party = true)
    (hawaits : service.AwaitsRoom party number) :
    party = .session number ∧ service.Greets number project := by
  obtain ⟨session, hsession, hwaits⟩ := hawaits
  have hmail := getElem?_mails hsession
  obtain ⟨⟨first, message⟩, hentry, rfl⟩ := List.mem_map.mp (Outbox.isAwaitedBy_iff.mp hwaits)
  have hwanted := h.inLine.announcements.mem_iff.mp
    (Locks.mem_line_of_holder? (beq_iff_eq.mp hturn))
  cases (h.patient.inOrder hmail).awaits _ hentry with
  | @own joined tags hwelcome =>
      have hcall : session.call = some (.greeting joined) :=
        (Option.filter_eq_some_iff.mp hwelcome).1
      obtain ⟨found, hfound, hbusy⟩ := call_of_wanted hwanted
      obtain rfl := Option.some.inj (hsession.symm.trans hfound)
      obtain rfl : joined = project := by simpa [hcall] using hbusy
      refine ⟨rfl, session, hsession, hcall, ?_⟩
      by_contra hclosed
      have hnobody : session.outbox.waiting = [] :=
        h.patient.isSettled hmail (Bool.eq_false_iff.mpr hclosed)
      change _ ∈ session.outbox.waiting at hentry
      rw [hnobody] at hentry
      cases hentry
  | @reports index job pass message hjob hpass hown hstage hmessage =>
      obtain ⟨found, hfound, -, hrank⟩ := job_of_wanted hwanted
      obtain rfl := Option.some.inj (hjob.symm.trans hfound)
      rw [hstage] at hrank
      simp [Stage.rank] at hrank

/-- A session that waits for room for the tags of a project has the lock of the project. -/
theorem Sound.awaitsRoom_of_greets (h : service.Sound) (hgreets : service.Greets number project) :
    service.announcements.isHeldBy project (.session number) = true ∧
      service.AwaitsRoom (.session number) number := by
  obtain ⟨session, hsession, hcall, hopen⟩ := hgreets
  have hmail := getElem?_mails hsession
  rw [session.mail_of_call hcall rfl] at hmail
  have hfirst := h.inLine.announcements.first (announcementHeld_of_welcome hmail (.inr rfl))
  exact ⟨beq_iff_eq.mpr hfirst, session, hsession,
    (h.inOrder_of_greeting hsession hcall).greets rfl hopen⟩

/-- What may hold up a project. -/
structure HoldsUp (service : Service) (project : Int) : Prop where
  /-- Nobody waits for room with the lock of the project but a session that has joined it, and
  that waits for room in its own outbox. -/
  awaits_iff : ∀ {party number},
    service.announcements.isHeldBy project party = true ∧ service.AwaitsRoom party number ↔
      party = .session number ∧ service.Greets number project
  /-- So whoever is in line goes without any client, unless a session that stands there before
  it, or the party itself, does not have the room that it needs. -/
  served : ∀ {party}, (project, party) ∈ service.announcements.line →
    ∃ parties, (project, party) ∉ (service.after parties).announcements.line ∨
      ∃ number, (service.after parties).IsStuck number project ∧
        (party = .session number ∨
          service.announcements.Before project (.session number) party)
  /-- In particular, announcements that are asked for are made. -/
  completes : ∀ {index job}, service.jobs[index]? = some job →
    job.announcementWanted = some project →
    ∃ parties, (∃ stage, (service.after parties).jobs[index]? = some (job.withStage stage) ∧
        7 ≤ stage.rank) ∨
      ∃ number, (service.after parties).IsStuck number project ∧
        service.announcements.Before project (.session number) (.job index)
  /-- Such a session has the lock, and while it does, nobody goes. -/
  stuck : ∀ {number}, service.IsStuck number project → ∀ parties,
    (service.after parties).announcements.holder? project = some (.session number) ∧
      ∀ {party}, (project, party) ∈ service.announcements.line →
        (project, party) ∈ (service.after parties).announcements.line

/-- **Sessions that join a project can hold it up, and nobody else**, at every moment of a
run. -/
theorem Run.holdsUp (run : Run) (moment : ℕ) (project : Int) :
    (run.state moment).HoldsUp project where
  awaits_iff := by
    intro party number
    constructor
    · rintro ⟨hturn, hawaits⟩
      exact (run.sound moment).eq_of_awaitsRoom hturn hawaits
    · rintro ⟨rfl, hgreets⟩
      exact (run.sound moment).awaitsRoom_of_greets hgreets
  served := (run.sound moment).served
  completes := (run.sound moment).completes
  stuck hstuck parties :=
    ⟨((run.sound moment).after parties).inLine.announcements.first
        (hstuck.after (run.sound moment) parties).held,
      fun hmem => hstuck.mem_after (run.sound moment) hmem parties⟩

/-- A session whose outbox is full of the tags of one project joins another one, which is then
announced. -/
def Run.heldUp : Run where
  first := openService
  isNew := isNew_openService
  moves moment := [
    Move.openSession 1, .authenticate 0 none, .step (.session 0), .handle 0 (.subscribe 7),
    .step (.session 0), .step (.session 0), .handle 0 (.subscribe 8), .step (.session 0),
    .step (.session 0), .startAnnouncement 8].getD moment (.wait 0)

/-- The session has joined the other project, and lacks room for its tags. -/
theorem Run.isStuck_heldUp :
    (Run.heldUp.state 10).IsStuck 0 8 ∧ (Run.heldUp.state 10).Greets 0 8 := by
  obtain ⟨session, hsession, hshape⟩ := Option.map_eq_some_iff.mp
    (show (Run.heldUp.state 10).sessions[0]?.map (fun session =>
        (session.call, session.outbox.isOpen, session.outbox.capacity,
          session.outbox.queue.length + session.outbox.ahead (.session 0))) =
      some (some (.greeting 8), true, 1, 1) by decide +kernel)
  simp only [Prod.mk.injEq] at hshape
  obtain ⟨hcall, hopen, hcapacity, hahead⟩ := hshape
  have hmail := getElem?_mails hsession
  rw [session.mail_of_call hcall rfl] at hmail
  refine ⟨.greets hmail ⟨hopen, ?_⟩, session, hsession, hcall, hopen⟩
  rw [hcapacity, hahead]

/-- A session can wait for room with the lock of a project, and an announcement of the project
waits for the session, however the parties go on. -/
theorem Run.heldUp_by_session :
    (Run.heldUp.state 10).announcements.isHeldBy 8 (.session 0) = true ∧
      (Run.heldUp.state 10).AwaitsRoom (.session 0) 0 ∧
      (Run.heldUp.state 10).announcementWanted (.job 0) = some 8 ∧
      ∀ parties, (8, .job 0) ∈ ((Run.heldUp.state 10).after parties).announcements.line := by
  have hsound := Run.heldUp.sound 10
  obtain ⟨hstuck, hgreets⟩ := Run.isStuck_heldUp
  have hwanted : (Run.heldUp.state 10).announcementWanted (.job 0) = some 8 := by decide +kernel
  obtain ⟨hturn, hawaits⟩ := hsound.awaitsRoom_of_greets hgreets
  exact ⟨hturn, hawaits, hwanted,
    hstuck.mem_after hsound (hsound.inLine.announcements.mem_iff.mpr hwanted)⟩

end Service

end PlcTags
