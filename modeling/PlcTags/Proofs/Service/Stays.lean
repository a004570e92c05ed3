import PlcTags.Proofs.Service.Listed

/-!
# What a session is told of projects

A session is in a project from the moment at which it has joined it to the one at which the
registry forgets it; this is a stay (`Run.Stays`).  It is told of a project only during its
stays there.  Each stay begins with the tags of the project, and what comes after them are
tags that have been listed later (`Run.informs`).
-/

namespace PlcTags.Service

open Live

variable {service next : Service} {number index : Nat} {move : Move} {project : Int}
  {standing after : Standing} {isEnd : Bool} {registry : Registry Nat} {announcements : Locks}

/-! ## Joining -/

/-- Only a session that is about to join a project comes to wait with its tags. -/
theorem Conduct.held_of_greeting
    (h : Conduct service number standing isEnd after registry announcements)
    (hcall : after.call = some (.greeting project)) :
    standing.announcementHeld = some project := by
  cases h with
  | registers hbefore =>
      obtain rfl := Call.greeting.inj (Option.some.inj hcall)
      rw [Standing.announcementHeld, hbefore]
  | checks | accepted | refused | asks | moves | loads | fails | joins | greets => cases hcall
  | _ =>
      have hsame : standing.call = some (.greeting project) := hcall
      rw [Standing.announcementHeld, hsame]

theorem state_of_held (hsound : standing.IsSound)
    (hheld : standing.announcementHeld = some project) : standing.state = .authenticated := by
  refine hsound.joining ?_
  rw [Standing.wanted_of_held hheld]
  exact Option.some_ne_none _

/-- A session that stays in its project stays subscribed to it. -/
theorem Conduct.state_of_isIn
    (h : Conduct service number standing isEnd after registry announcements)
    (hsound : standing.IsSound) (hstate : standing.state = .subscribed project)
    (hin : after.IsIn project) : after.state = .subscribed project := by
  rcases hin with hsame | hcall
  · exact hsame
  · cases hstate.symm.trans (state_of_held hsound (h.held_of_greeting hcall))

/-- A session that is done with joining a project is subscribed to it. -/
theorem Conduct.joined (h : Conduct service number standing isEnd after registry announcements)
    (hheld : standing.announcementHeld = some project) (hdone : after.announcementHeld = none) :
    after.state = .subscribed project := by
  have hbusy : standing.call ≠ none := by
    intro hidle
    rw [Standing.announcementHeld, hidle] at hheld
    cases hheld
  cases h with
  | joins hcall | greets hcall =>
      rw [Standing.announcementHeld, hcall] at hheld
      obtain rfl := Option.some.inj hheld
      rfl
  | checks _ hidle | leaves hidle | asks _ hidle | moves _ hidle | edits hidle | closes _ hidle
  | closesIn _ hidle | goes hidle => exact absurd (Standing.isIdle_iff.mp hidle).2 hbusy
  | accepted hcall | refused hcall | loads _ hcall | fails hcall =>
      rw [Standing.announcementHeld, hcall] at hheld
      cases hheld
  | answers => cases hheld.symm.trans hdone
  | registers => cases hdone

/-- A session that is subscribed to a project, and was not before, is done with joining it. -/
theorem Conduct.held_of_joined
    (h : Conduct service number standing isEnd after registry announcements)
    (hbefore : standing.state ≠ .subscribed project) (hafter : after.state = .subscribed project) :
    standing.announcementHeld = some project ∧ after.call = none := by
  cases h with
  | joins hcall | greets hcall =>
      obtain rfl := SessionState.subscribed.inj hafter
      refine ⟨?_, rfl⟩
      rw [Standing.announcementHeld, hcall]
  | accepted | leaves | moves | closes | closesIn => cases hafter
  | _ => exact absurd hafter hbefore

/-- The session is subscribed to the project. -/
def IsSubscribed (service : Service) (number : Nat) (project : Int) : Prop :=
  ∃ session, service.sessions[number]? = some session ∧ session.state = .subscribed project

theorem isSubscribed_iff : service.IsSubscribed number project ↔
    ∃ standing : Standing, service.standings[number]? = some standing ∧
      standing.state = .subscribed project := by
  constructor
  · rintro ⟨session, hsession, hstate⟩
    exact ⟨session.standing, getElem?_standings hsession, hstate⟩
  · rintro ⟨standing, hstanding, hstate⟩
    obtain ⟨session, hsession, rfl⟩ := exists_of_getElem?_standings hstanding
    exact ⟨session, hsession, hstate⟩

theorem IsSubscribed.congr (h : service.IsSubscribed number project)
    (hsame : next.standings[number]? = service.standings[number]?) :
    next.IsSubscribed number project := by
  rw [isSubscribed_iff, hsame]
  exact isSubscribed_iff.mp h

theorem Seated.mem_of_isSubscribed (h : service.Seated)
    (hsubscribed : service.IsSubscribed number project) :
    number ∈ service.registry.subscribers project := by
  obtain ⟨standing, hstanding, hstate⟩ := isSubscribed_iff.mp hsubscribed
  exact (h.mem_iff_isIn hstanding project).mpr (.inl hstate)

/-- What becomes of the standing of one session. -/
inductive StandingGo (service : Service) (number : Nat) (standing : Standing) (next : Service) :
    Prop where
  | stay (hsame : next.standings[number]? = service.standings[number]?)
  | conduct {isEnd : Bool} {after : Standing} {registry : Registry Nat} {announcements : Locks}
      (hconduct : Conduct service number standing isEnd after registry announcements)
      (hafter : next.standings[number]? = some after)

theorem Happens.standingGo (h : Happens service move next)
    (hstanding : service.standings[number]? = some standing) :
    StandingGo service number standing next := by
  have hlength := (List.getElem?_eq_some_iff.mp hstanding).1
  cases h.seatsGo with
  | stay hsame => exact .stay (by rw [hsame.standings])
  | @conduct other _ hconducts hend =>
      obtain ⟨found, after, hfound, hconduct, hstandings⟩ := hconducts
      by_cases hother : other = number
      · subst hother
        obtain rfl := Option.some.inj (hstanding.symm.trans hfound)
        exact .conduct hconduct (by rw [hstandings, List.getElem?_set_self hlength])
      · exact .stay (by rw [hstandings, List.getElem?_set_ne hother])
  | opened hstandings hregistry =>
      exact .stay (by rw [hstandings, List.getElem?_append_left hlength])

/-- A session that is done with joining a project is subscribed to it. -/
theorem Happens.joined (h : Happens service move next)
    (hheld : service.announcementHeld (.session number) = some project)
    (hdone : next.announcementHeld (.session number) = none) :
    next.IsSubscribed number project := by
  obtain ⟨standing, hstanding, hheld'⟩ := Option.bind_eq_some_iff.mp hheld
  cases h.standingGo hstanding with
  | stay hsame =>
      rw [announcementHeld, hsame, hstanding, Option.bind_some] at hdone
      cases hheld'.symm.trans hdone
  | conduct hconduct hafter =>
      rw [announcementHeld, hafter, Option.bind_some] at hdone
      exact isSubscribed_iff.mpr ⟨_, hafter, hconduct.joined hheld' hdone⟩

/-- A session that stays in its project stays subscribed to it. -/
theorem Happens.isSubscribed (h : Happens service move next) (hseated : service.Seated)
    (hnext : next.Seated) (hsubscribed : service.IsSubscribed number project)
    (hmember : number ∈ next.registry.subscribers project) :
    next.IsSubscribed number project := by
  obtain ⟨standing, hstanding, hstate⟩ := isSubscribed_iff.mp hsubscribed
  cases h.standingGo hstanding with
  | stay hsame => exact hsubscribed.congr hsame
  | conduct hconduct hafter =>
      have hin := (hnext.mem_iff_isIn hafter project).mp hmember
      exact isSubscribed_iff.mpr
        ⟨_, hafter, hconduct.state_of_isIn (hseated.isSound hstanding) hstate hin⟩

/-- A session that is subscribed to a project, and was not before, is done with joining it. -/
theorem Happens.held_of_joined (h : Happens service move next)
    (hbefore : ¬ service.IsSubscribed number project)
    (hafter : next.IsSubscribed number project) :
    service.announcementHeld (.session number) = some project ∧
      ∃ standing, next.standings[number]? = some standing ∧ standing.call = none := by
  obtain ⟨after, hthere, hstate⟩ := isSubscribed_iff.mp hafter
  cases hstanding : service.standings[number]? with
  | none =>
      -- A session that is new is subscribed to nothing.
      cases h.seatsGo with
      | stay hsame => rw [hsame.standings, hstanding] at hthere; cases hthere
      | conduct hconducts hend =>
          obtain ⟨found, later, hfound, -, hstandings⟩ := hconducts
          have hlength := List.getElem?_eq_none_iff.mp hstanding
          rw [hstandings, List.getElem?_eq_none (by simpa using hlength)] at hthere
          cases hthere
      | opened hstandings hregistry =>
          rw [hstandings] at hthere
          rcases of_getElem?_concat hthere with hold | ⟨-, rfl⟩
          · cases hstanding.symm.trans hold
          · cases hstate
  | some standing =>
      cases h.standingGo hstanding with
      | stay hsame => exact absurd (hafter.congr hsame.symm) hbefore
      | conduct hconduct hlater =>
          obtain rfl := Option.some.inj (hthere.symm.trans hlater)
          have hfree : standing.state ≠ .subscribed project :=
            fun hstate => hbefore (isSubscribed_iff.mpr ⟨standing, hstanding, hstate⟩)
          obtain ⟨hheld, hcall⟩ := hconduct.held_of_joined hfree hstate
          rw [announcementHeld, hstanding, Option.bind_some]
          exact ⟨hheld, after, hthere, hcall⟩

/-! ## Open outboxes -/

/-- Somebody takes messages out of the outbox of the session. -/
def IsOpen (service : Service) (number : Nat) : Prop :=
  ∃ session, service.sessions[number]? = some session ∧ session.outbox.isOpen = true

theorem isOpen_iff : service.IsOpen number ↔
    ∃ mail : Mail, service.mails[number]? = some mail ∧ mail.outbox.isOpen = true := by
  constructor
  · rintro ⟨session, hsession, hopen⟩
    exact ⟨session.mail, getElem?_mails hsession, hopen⟩
  · rintro ⟨mail, hmail, hopen⟩
    obtain ⟨session, hsession, rfl⟩ := exists_of_getElem?_mails hmail
    exact ⟨session, hsession, hopen⟩

theorem MailGo.isOpen {mail later : Mail} (h : MailGo service number move mail later)
    (hopen : later.outbox.isOpen = true) : mail.outbox.isOpen = true := by
  cases h with
  | loads | unheard => exact hopen
  | registers | joins => rwa [Outbox.isOpen_send] at hopen
  | greets houtbox =>
      obtain ⟨message, -, -, hlater⟩ := Outbox.admit?_eq_some_iff.mp houtbox
      rw [hlater] at hopen
      exact hopen
  | takes htakes =>
      obtain ⟨-, hlater⟩ := Outbox.take?_eq_some_iff.mp htakes
      rw [hlater] at hopen
      exact hopen
  | hangsUp => cases hopen
  | posts message => rwa [Outbox.isOpen_offer] at hopen

theorem JobMail.isOpen {job : Job} {stage : Stage} {outbox later : Outbox}
    (h : service.JobMail index job stage number outbox later) (hopen : later.isOpen = true) :
    outbox.isOpen = true := by
  cases h with
  | rests => rwa [isOpen_delivered] at hopen
  | tells => rwa [Outbox.isOpen_send, isOpen_delivered] at hopen
  | admits hpass hsession hstage houtbox =>
      obtain ⟨message, -, -, hlater⟩ := Outbox.admit?_eq_some_iff.mp houtbox
      rw [hlater] at hopen
      exact hopen

/-- An outbox that has been closed is not opened again. -/
theorem MailsGo.isOpen (h : MailsGo service move next)
    (hlength : number < service.sessions.length) (hopen : next.IsOpen number) :
    service.IsOpen number := by
  obtain ⟨later, hlater, hopen⟩ := isOpen_iff.mp hopen
  rw [← length_mails] at hlength
  have hmail := List.getElem?_eq_getElem hlength
  obtain ⟨found, hfound, hstep⟩ := h.getElem? hmail
  obtain rfl := Option.some.inj (hlater.symm.trans hfound)
  rw [isOpen_iff]
  cases hstep with
  | rests => exact ⟨_, hmail, hopen⟩
  | goes hgo => exact ⟨_, hmail, hgo.isOpen hopen⟩
  | job hmove hsteps hgo => exact ⟨_, hmail, hgo.isOpen hopen⟩

/-! ## Stays -/

namespace Run

/-- At this moment the session has joined the project. -/
def Joins (run : Run) (number : ℕ) (project : Int) (moment : ℕ) : Prop :=
  ¬ (run.state moment).IsSubscribed number project ∧
    (run.state (moment + 1)).IsSubscribed number project

/-- The session has joined the project at the first of these moments, and is in it up to the
last one. -/
structure Stays (run : Run) (number : ℕ) (project : Int) (first last : ℕ) : Prop where
  joins : run.Joins number project first
  lt : first < last
  member : ∀ moment, first < moment → moment ≤ last →
    number ∈ (run.state moment).registry.subscribers project

variable {run : Run} {moment first last later : ℕ} {message : ServerMessage}

theorem Joins.stays (h : run.Joins number project moment) :
    run.Stays number project moment (moment + 1) where
  joins := h
  lt := Nat.lt_succ_self moment
  member := by
    intro other hlt hle
    obtain rfl := Nat.le_antisymm hle hlt
    exact (run.seated _).mem_of_isSubscribed h.2

theorem Stays.succ (h : run.Stays number project first last)
    (hmember : number ∈ (run.state (last + 1)).registry.subscribers project) :
    run.Stays number project first (last + 1) where
  joins := h.joins
  lt := Nat.lt_succ_of_lt h.lt
  member := by
    intro moment hlt hle
    rcases Nat.le_succ_iff.mp hle with hearlier | rfl
    · exact h.member moment hlt hearlier
    · exact hmember

/-- A session is subscribed to a project while it stays there. -/
theorem Stays.isSubscribed (h : run.Stays number project first last) (hlt : first < moment)
    (hle : moment ≤ last) : (run.state moment).IsSubscribed number project := by
  induction moment, hlt using Nat.le_induction with
  | base => exact h.joins.2
  | succ moment hlt ih =>
      exact (run.happens moment).isSubscribed (run.seated moment) (run.seated (moment + 1))
        (ih (Nat.le_of_succ_le hle)) (h.member (moment + 1) (Nat.lt_succ_of_lt hlt) hle)

/-- A session that is subscribed to a project has joined it, and stays there. -/
theorem exists_stays (h : (run.state moment).IsSubscribed number project) :
    ∃ first, run.Stays number project first moment := by
  induction moment with
  | zero =>
      obtain ⟨session, hsession, -⟩ := h
      rw [sessions_zero] at hsession
      cases hsession
  | succ moment ih =>
      by_cases hbefore : (run.state moment).IsSubscribed number project
      · obtain ⟨first, hstays⟩ := ih hbefore
        exact ⟨first, hstays.succ ((run.seated _).mem_of_isSubscribed h)⟩
      · exact ⟨moment, Joins.stays ⟨hbefore, h⟩⟩

theorem isOpen_of_le (hle : moment ≤ later) (hlength : number < (run.state moment).sessions.length)
    (hopen : (run.state later).IsOpen number) : (run.state moment).IsOpen number := by
  induction hle with
  | refl => exact hopen
  | step hle ih =>
      have hgrows := run.length_standings_le hle
      simp only [standings, List.length_map] at hgrows
      exact ih ((run.mailsGo _).isOpen (Nat.lt_of_lt_of_le hlength hgrows) hopen)

end Run

/-! ## The beginning of a stay -/

theorem busy_of_held (hheld : service.announcementHeld (.session number) = some project) :
    ∃ mail : Mail, service.mails[number]? = some mail ∧ mail.welcome ≠ none := by
  obtain ⟨outbox, ⟨tags, hmail⟩ | hmail⟩ := welcome_of_held hheld
  · exact ⟨_, hmail, Option.some_ne_none _⟩
  · exact ⟨_, hmail, Option.some_ne_none _⟩

theorem held_of_welcome {mail : Mail} (hmail : service.mails[number]? = some mail)
    (hnone : mail.welcome = none) : service.announcementHeld (.session number) = none := by
  cases hheld : service.announcementHeld (.session number) with
  | none => rfl
  | some project =>
      obtain ⟨found, hfound, hbusy⟩ := busy_of_held hheld
      obtain rfl := Option.some.inj (hmail.symm.trans hfound)
      exact absurd hnone hbusy

/-- A session that has joined a project, and to whose outbox somebody listens, has been told
its tags. -/
theorem NewsGo.welcome {news : List ServerMessage} (h : NewsGo service number move next news)
    (hhappens : Happens service move next) (hbefore : ¬ service.IsSubscribed number project)
    (hafter : next.IsSubscribed number project) (hopen : service.IsOpen number) :
    ∃ tags, news = [.subscribed project tags] := by
  obtain ⟨hheld, standing, hstanding, hcall⟩ := hhappens.held_of_joined hbefore hafter
  obtain ⟨mail, hmail, hbusy⟩ := busy_of_held hheld
  obtain ⟨session, hsession, rfl⟩ := exists_of_getElem?_standings hstanding
  have hidle : session.mail.welcome = none := by rw [Session.mail_of_idle hcall]
  have hheard : ¬ JoinsUnheard service number next := by
    intro hunheard
    obtain ⟨found, hfound, hopen⟩ := isOpen_iff.mp hopen
    obtain rfl := Option.some.inj (hmail.symm.trans hfound)
    cases hopen.symm.trans (hunheard mail session.mail hmail (getElem?_mails hsession) hbusy hidle)
  cases h with
  | quiet hmove hunheard => exact absurd hunheard hheard
  | job hmove hsteps hunheard => exact absurd hunheard hheard
  | @welcomes told tags hmove hknows hended =>
      obtain rfl := Option.some.inj (hheld.symm.trans hknows.held)
      exact ⟨tags, rfl⟩

theorem Happens.sameSeats_of_job (h : Happens service (.step (.job index)) next) :
    next.SameSeats service := by
  cases h with
  | nothing => exact .refl service
  | progress hjob hstep hprogress => exact (sameButTold_of_progress hprogress).sameSeats
  | conduct hmove | crash hmove | opened hmove | messages hmove | merge hmove =>
      exact absurd rfl (hmove index)

/-- A job that has listed a project tells only those who are subscribed to it. -/
theorem Knows.isSubscribed {tags : List StoredTag}
    (h : Knows service number project tags (.job index)) (hline : service.InLine)
    (hseated : service.Seated) : service.IsSubscribed number project := by
  have hheld := h.held
  cases h with
  | delivers hjob hstage hproject hmember =>
      obtain ⟨standing, hstanding, hin⟩ := hseated.mem_iff.mp hmember
      rcases hin with hstate | hcall
      · exact isSubscribed_iff.mpr ⟨standing, hstanding, hstate⟩
      · -- A session that is about to join holds the lock itself.
        have hown : service.announcementHeld (.session number) = some project := by
          rw [announcementHeld, hstanding, Option.bind_some, Standing.announcementHeld, hcall]
        cases hline.announcements.eq_of_holds hown hheld

/-! ## Every run -/

namespace Run

variable {run : Run} {moment first last later : ℕ} {message : ServerMessage}

theorem told (hanswers : run.Answers) (h : message ∈ run.news number moment) :
    run.news number moment = [message] ∧ ∃ party project tags, run.moves moment = .step party ∧
      Bears number project tags party message ∧
      Knows (run.state moment) number project tags party := by
  obtain ⟨hnews, party, project, tags, hmove, hbears, hknows, -⟩ :=
    (newsGo hanswers number moment).told (run.happens moment) h
  exact ⟨hnews, party, project, tags, hmove, hbears, hknows⟩

theorem welcome (hanswers : run.Answers) (h : run.Stays number project first last)
    (hlt : first < later) (hopen : (run.state later).IsOpen number) :
    ∃ tags, run.news number first = [.subscribed project tags] := by
  have hhappens := run.happens first
  obtain ⟨hheld, -⟩ := hhappens.held_of_joined h.joins.1 h.joins.2
  obtain ⟨standing, hstanding, -⟩ := Option.bind_eq_some_iff.mp hheld
  have hlength := (List.getElem?_eq_some_iff.mp hstanding).1
  rw [standings, List.length_map] at hlength
  exact (newsGo hanswers number first).welcome hhappens h.joins.1 h.joins.2
    (isOpen_of_le (Nat.le_of_lt hlt) hlength hopen)

theorem inside (hanswers : run.Answers) (h : message ∈ run.news number moment) :
    ∃ project first, run.Stays number project first (moment + 1) ∧
      ((moment = first ∧ ∃ tags, message = .subscribed project tags) ∨
        first < moment ∧ ∃ tags, message = .tagsUpdated project tags) := by
  have hhappens := run.happens moment
  have hgo := newsGo hanswers number moment
  generalize run.news number moment = news at hgo h
  cases hgo with
  | quiet => cases h
  | @welcomes project tags hmove hknows hended =>
      obtain rfl := List.mem_singleton.mp h
      obtain ⟨mail, hmail, hnone⟩ := hended
      refine ⟨project, moment, Joins.stays ⟨?_, ?_⟩, .inl ⟨rfl, tags, rfl⟩⟩
      · intro hsubscribed
        obtain ⟨standing, hstanding, hstate⟩ := isSubscribed_iff.mp hsubscribed
        have hheld := hknows.held
        rw [announcementHeld, hstanding, Option.bind_some] at hheld
        cases hstate.symm.trans (state_of_held ((run.seated moment).isSound hstanding) hheld)
      · exact hhappens.joined hknows.held (held_of_welcome hmail hnone)
  | @job index job stage hmove hsteps hunheard =>
      obtain ⟨tags, -, rfl, hknows, -⟩ := knows_of_tidings hsteps.before h
      have hsubscribed := hknows.isSubscribed (run.inLine moment) (run.seated moment)
      obtain ⟨first, hstays⟩ := exists_stays hsubscribed
      refine ⟨job.project, first, hstays.succ ?_, .inr ⟨hstays.lt, tags, rfl⟩⟩
      rw [hmove] at hhappens
      rw [hhappens.sameSeats_of_job.registry]
      exact (run.seated moment).mem_of_isSubscribed hsubscribed

/-- A job tells the members of its project what it has listed. -/
theorem announces (hanswers : run.Answers) {job : Job} {report : Option MergeReport}
    {diagnostics : List Diagnostic} {tags : List StoredTag}
    (hjob : (run.state moment).jobs[index]? = some job)
    (hstage : job.stage = .delivering report diagnostics tags)
    (hmove : run.moves moment = .step (.job index)) :
    run.news number moment =
      if number ∈ (run.state moment).registry.subscribers job.project ∧
          (run.state moment).sessions[number]?.any (·.outbox.accepts) then
        [.tagsUpdated job.project tags]
      else [] := by
  have hhappens := run.happens moment
  rw [hmove] at hhappens
  have hgo := newsGo hanswers number moment
  generalize run.news number moment = news at hgo ⊢
  cases hgo with
  | quiet hstill =>
      -- The step of a job that delivers is never nothing.
      have hjob' := hjob
      rw [← hstill index hmove] at hjob'
      have hrank := hhappens.rank_of_delivering hjob hstage hjob'
      rw [hstage] at hrank
      exact absurd hrank (by simp [Stage.rank])
  | welcomes hother => cases hmove.symm.trans hother
  | job hother hsteps =>
      obtain rfl := Party.job.inj (Move.step.inj (hmove.symm.trans hother))
      obtain rfl := Option.some.inj (hjob.symm.trans hsteps.before)
      rw [tidings, hstage]

end Run

end PlcTags.Service
