import PlcTags.Proofs.Service.Seats

/-!
# Passes in the order of their edits

Jobs keep their numbers and never go back.  Of the passes among them a later one belongs
to a later edit: its number is greater, and so is its token if the session is the same
(`PassesInOrder`).  So a pass with a later one of the same session is superseded
(`isSuperseded_of_lt`).  It stays so, and if it has not asked for its merge by then it never
does (`Run.shelved`).
-/

namespace PlcTags.Service

open Live

variable {service next : Service} {move : Move} {number : Nat} {job : Job} {pass : Pass}

/-! ## What becomes of jobs -/

/-- What a move does to the jobs. -/
inductive JobsGo (service : Service) (move : Move) (next : Service) : Prop where
  | stay (hjobs : next.jobs = service.jobs)
  /-- A job makes a step. -/
  | step {number : Nat} {job : Job} {stage : Stage} (hmove : move = .step (.job number))
      (hjob : service.jobs[number]? = some job)
      (hjobs : next.jobs = service.jobs.set number (job.withStage stage))
      (hrank : job.stage.rank ≤ stage.rank)
  | new {job : Job} (hmove : ∀ number, move ≠ .step (.job number))
      (hjobs : next.jobs = service.jobs ++ [job])

theorem Happens.jobsGo (h : Happens service move next) : JobsGo service move next := by
  cases h with
  | nothing => exact .stay rfl
  | progress hjob hstep hprogress =>
      obtain ⟨stage, hjobs, hpassage⟩ := jobs_of_passes (passes_of_progress hprogress) hjob
      exact .step rfl hjob hjobs hpassage.rank_le
  | conduct hmove hconducts hend htasks => exact .stay htasks.jobs
  | crash hmove hconducts htasks => exact .stay htasks.jobs
  | edit hsession hidle hstate hdelay => exact .new nofun rfl
  | opened hmove hstandings hregistry hannouncements htasks => exact .stay htasks.jobs
  | messages hmove hseats hannouncements htasks => exact .stay htasks.jobs
  | merge hmove hpurpose => exact .new hmove rfl
  | announcement project => exact .new nofun rfl
  | wait duration => exact .stay rfl
  | access database => exact .stay rfl

/-- A job goes on to be the same job, and makes its own steps only. -/
theorem JobsGo.getElem? (h : JobsGo service move next) (hjob : service.jobs[number]? = some job) :
    ∃ stage : Stage, next.jobs[number]? = some (job.withStage stage) ∧
      job.stage.rank ≤ stage.rank ∧ (move ≠ .step (.job number) → stage = job.stage) := by
  obtain ⟨hlength, -⟩ := List.getElem?_eq_some_iff.mp hjob
  cases h with
  | stay hjobs => exact ⟨job.stage, by rw [hjobs]; exact hjob, Nat.le_refl _, fun _ => rfl⟩
  | @step other job' stage hmove hother hjobs hrank =>
      by_cases hnumber : other = number
      · subst hnumber
        obtain rfl := Option.some.inj (hother.symm.trans hjob)
        exact ⟨stage, by rw [hjobs, List.getElem?_set_self hlength], hrank,
          fun hne => absurd hmove hne⟩
      · refine ⟨job.stage, ?_, Nat.le_refl _, fun _ => rfl⟩
        rw [hjobs, List.getElem?_set_ne hnumber]
        exact hjob
  | new hmove hjobs =>
      refine ⟨job.stage, ?_, Nat.le_refl _, fun _ => rfl⟩
      rw [hjobs, List.getElem?_append_left hlength]
      exact hjob

/-- A job was there before, or is new. -/
theorem JobsGo.of_getElem? (h : JobsGo service move next) {later : Job}
    (hlater : next.jobs[number]? = some later) :
    (∃ job, service.jobs[number]? = some job ∧ later = job.withStage later.stage) ∨
      number = service.jobs.length ∧ next.jobs = service.jobs ++ [later] := by
  cases h with
  | stay hjobs => exact .inl ⟨later, by rw [← hjobs]; exact hlater, rfl⟩
  | @step other job stage hmove hother hjobs hrank =>
      left
      rw [hjobs, List.getElem?_set] at hlater
      split at hlater
      · rename_i hnumber
        subst hnumber
        split at hlater
        · obtain rfl := Option.some.inj hlater
          exact ⟨job, hother, rfl⟩
        · cases hlater
      · exact ⟨later, hlater, rfl⟩
  | new hmove hjobs =>
      rw [hjobs] at hlater
      rcases of_getElem?_concat hlater with hold | ⟨hnumber, rfl⟩
      · exact .inl ⟨later, hold, rfl⟩
      · exact .inr ⟨hnumber, hjobs⟩

/-- Jobs stay, and go on. -/
theorem Run.getElem?_jobs (run : Run) {moment later : ℕ} (hle : moment ≤ later)
    (hjob : (run.state moment).jobs[number]? = some job) :
    ∃ stage : Stage, (run.state later).jobs[number]? = some (job.withStage stage) ∧
      job.stage.rank ≤ stage.rank := by
  induction hle with
  | refl => exact ⟨job.stage, hjob, Nat.le_refl _⟩
  | @step later hle ih =>
      obtain ⟨stage, hstage, hrank⟩ := ih
      obtain ⟨after, hafter, hle, -⟩ := (run.happens later).jobsGo.getElem? hstage
      exact ⟨after, hafter, Nat.le_trans hrank hle⟩

/-- Slots remember what they have handed out and cancelled. -/
theorem Happens.grows (h : Happens service move next) {standing : Standing}
    (hstanding : service.standings[number]? = some standing) :
    ∃ later, next.standings[number]? = some later ∧ later.slot.Grows standing.slot := by
  obtain ⟨hlength, -⟩ := List.getElem?_eq_some_iff.mp hstanding
  cases h.seatsGo with
  | stay hsame => exact ⟨standing, by rw [hsame.standings]; exact hstanding, .refl _⟩
  | @conduct other isEnd hconducts hend =>
      obtain ⟨found, later, hfound, hconduct, hstandings⟩ := hconducts
      rw [hstandings]
      by_cases hother : other = number
      · subst hother
        obtain rfl := Option.some.inj (hfound.symm.trans hstanding)
        exact ⟨later, List.getElem?_set_self hlength, hconduct.grows⟩
      · rw [List.getElem?_set_ne hother]
        exact ⟨standing, hstanding, .refl _⟩
  | opened hstandings hregistry =>
      rw [hstandings, List.getElem?_append_left hlength]
      exact ⟨standing, hstanding, .refl _⟩

/-- Numbers and time only grow, and the settings stay. -/
theorem Happens.clock (h : Happens service move next) :
    service.syncs ≤ next.syncs ∧ service.now ≤ next.now ∧ next.settings = service.settings := by
  have hsame : next.SameTasks service →
      service.syncs ≤ next.syncs ∧ service.now ≤ next.now ∧ next.settings = service.settings :=
    fun htasks => ⟨Nat.le_of_eq htasks.syncs.symm, Nat.le_of_eq htasks.now.symm, htasks.settings⟩
  cases h with
  | nothing => exact ⟨Nat.le_refl _, Nat.le_refl _, rfl⟩
  | progress hjob hstep hprogress =>
      have hsame := sameButTold_of_progress hprogress
      exact ⟨Nat.le_of_eq hsame.syncs.symm, Nat.le_of_eq hsame.now.symm, hsame.settings⟩
  | conduct hmove hconducts hend htasks => exact hsame htasks
  | crash hmove hconducts htasks =>
      rw [htasks.syncs, htasks.now, htasks.settings]
      exact ⟨Nat.le_succ _, Nat.le_refl _, rfl⟩
  | edit hsession hidle hstate hdelay => exact ⟨Nat.le_succ _, Nat.le_refl _, rfl⟩
  | opened hmove hstandings hregistry hannouncements htasks => exact hsame htasks
  | messages hmove hseats hannouncements htasks => exact hsame htasks
  | merge hmove hpurpose => exact ⟨Nat.le_refl _, Nat.le_refl _, rfl⟩
  | announcement project => exact ⟨Nat.le_refl _, Nat.le_refl _, rfl⟩
  | wait duration => exact ⟨Nat.le_refl _, Nat.le_add_right _ _, rfl⟩
  | access database => exact ⟨Nat.le_refl _, Nat.le_refl _, rfl⟩

/-! ## The order of passes -/

/-- Passes are known to their sessions, and come in the order of their edits. -/
structure PassesInOrder (service : Service) : Prop where
  known : ∀ {number : Nat} {job : Job} {pass : Pass}, service.jobs[number]? = some job →
    job.pass? = some pass → pass.sync ≤ service.syncs ∧
      ∃ standing, service.standings[pass.session]? = some standing ∧
        pass.token < standing.slot.cancelled.length
  ordered : ∀ {first second : Nat} {job later : Job} {pass laterPass : Pass}, first < second →
    service.jobs[first]? = some job → service.jobs[second]? = some later →
    job.pass? = some pass → later.pass? = some laterPass →
      pass.sync < laterPass.sync ∧
        (pass.session = laterPass.session → pass.token < laterPass.token)

/-- The pass of the edit that a move accepts is known, and comes after all others. -/
structure NewPass (service next : Service) (job : Job) (pass : Pass) : Prop where
  delayed : ∃ delay, service.settings.sync.debounceDelay? pass.edit.debounceMs = some delay ∧
    job.stage = .delayed (service.now + delay)
  sync : pass.sync = service.syncs + 1
  syncs : next.syncs = service.syncs + 1
  token : ∀ {standing}, service.standings[pass.session]? = some standing →
    pass.token = standing.slot.cancelled.length
  known : ∃ standing, next.standings[pass.session]? = some standing ∧
    pass.token < standing.slot.cancelled.length

/-- A job that is new has no pass, or a new one. -/
theorem Happens.newPass (h : Happens service move next) {later : Job}
    (hjobs : next.jobs = service.jobs ++ [later]) {pass : Pass} (hpass : later.pass? = some pass) :
    service.NewPass next later pass := by
  have hsame : next.jobs ≠ service.jobs := by
    rw [hjobs]
    simp
  -- Only an edit, a merge, an import and an announcement add a job, and only an edit a pass.
  cases h with
  | nothing => exact absurd rfl hsame
  | @progress number job next hjob hstep hprogress =>
      obtain ⟨stage, hset, -⟩ := jobs_of_passes (passes_of_progress hprogress) hjob
      have hlength := congrArg List.length (hset.symm.trans hjobs)
      simp at hlength
  | conduct hmove hconducts hend htasks => exact absurd htasks.jobs hsame
  | crash hmove hconducts htasks => exact absurd htasks.jobs hsame
  | @edit number session project edit delay hsession hidle hstate hdelay =>
      obtain rfl : _ = later := List.singleton_inj.mp (List.append_cancel_left hjobs)
      obtain rfl := Option.some.inj hpass
      have hstanding := getElem?_standings hsession
      obtain ⟨hlength, -⟩ := List.getElem?_eq_some_iff.mp hstanding
      refine ⟨⟨delay, hdelay, rfl⟩, rfl, rfl, ?_, ?_⟩
      · intro standing hfound
        obtain rfl := Option.some.inj (hstanding.symm.trans hfound)
        rfl
      · refine ⟨{ session.standing with slot := session.slot.arm }, ?_, ?_⟩
        · rw [standings_withEdit hidle]
          exact List.getElem?_set_self hlength
        · show session.slot.cancelled.length < session.slot.arm.cancelled.length
          rw [Slot.length_arm]
          exact Nat.lt_succ_self _
  | opened hmove hstandings hregistry hannouncements htasks => exact absurd htasks.jobs hsame
  | messages hmove hseats hannouncements htasks => exact absurd htasks.jobs hsame
  | merge hmove hpurpose =>
      obtain rfl : _ = later := List.singleton_inj.mp (List.append_cancel_left hjobs)
      exact absurd (Job.pass?_eq_some_iff.mp hpass) (hpurpose pass)
  | announcement project =>
      obtain rfl : _ = later := List.singleton_inj.mp (List.append_cancel_left hjobs)
      cases hpass
  | wait duration => exact absurd rfl hsame
  | access database => exact absurd rfl hsame

theorem PassesInOrder.happens (h : service.PassesInOrder) (hhappens : Happens service move next) :
    next.PassesInOrder := by
  have hgo := hhappens.jobsGo
  obtain ⟨hsyncs, -, -⟩ := hhappens.clock
  constructor
  · intro number later pass hlater hpass
    rcases hgo.of_getElem? hlater with ⟨job, hjob, hsame⟩ | ⟨-, hjobs⟩
    · rw [hsame] at hpass
      obtain ⟨hsync, standing, hstanding, htoken⟩ := h.known hjob hpass
      obtain ⟨found, hfound, hgrows⟩ := hhappens.grows hstanding
      exact ⟨Nat.le_trans hsync hsyncs, found, hfound, Nat.lt_of_lt_of_le htoken hgrows.length⟩
    · have hnew := hhappens.newPass hjobs hpass
      exact ⟨Nat.le_of_eq (hnew.sync.trans hnew.syncs.symm), hnew.known⟩
  · intro first second firstJob secondJob firstPass secondPass hlt hfirst hsecond hfirstPass
      hsecondPass
    rcases hgo.of_getElem? hfirst with ⟨job, hjob, hsame⟩ | ⟨hlength, hjobs⟩
    · rw [hsame] at hfirstPass
      rcases hgo.of_getElem? hsecond with ⟨later, hlater, hsame'⟩ | ⟨-, hjobs⟩
      · rw [hsame'] at hsecondPass
        exact h.ordered hlt hjob hlater hfirstPass hsecondPass
      · obtain ⟨hsync, standing, hstanding, htoken⟩ := h.known hjob hfirstPass
        have hnew := hhappens.newPass hjobs hsecondPass
        refine ⟨?_, ?_⟩
        · rw [hnew.sync]
          omega
        · intro hsession
          rw [hnew.token (hsession ▸ hstanding)]
          exact htoken
    · -- No job comes after a new one.
      have hbound := (List.getElem?_eq_some_iff.mp hsecond).1
      rw [hjobs] at hbound
      simp at hbound
      omega

theorem Run.passesInOrder (run : Run) (moment : ℕ) : (run.state moment).PassesInOrder := by
  apply Run.invariant _ PassesInOrder.happens
  intro settings database supply service hstart
  obtain ⟨events, -, rfl⟩ := Option.map_eq_some_iff.mp hstart
  exact ⟨nofun, fun _ hfirst => by cases hfirst⟩

/-! ## Superseded passes -/

theorem isSuperseded_eq {standing : Standing}
    (hstanding : service.standings[pass.session]? = some standing) :
    service.isSuperseded pass = standing.slot.isCancelled pass.token := by
  obtain ⟨session, hsession, rfl⟩ := exists_of_getElem?_standings hstanding
  rw [isSuperseded, hsession]
  rfl

/-- What is superseded stays superseded. -/
theorem Happens.isSuperseded (h : Happens service move next) (hpasses : service.PassesInOrder)
    (hjob : service.jobs[number]? = some job) (hpass : job.pass? = some pass)
    (hlate : service.isSuperseded pass = true) : next.isSuperseded pass = true := by
  obtain ⟨-, standing, hstanding, -⟩ := hpasses.known hjob hpass
  obtain ⟨later, hlater, hgrows⟩ := h.grows hstanding
  rw [isSuperseded_eq hstanding] at hlate
  rw [isSuperseded_eq hlater]
  exact hgrows.cancelled hlate

/-- A later pass of a session supersedes the earlier ones. -/
theorem isSuperseded_of_lt (hpasses : service.PassesInOrder) (hseated : service.Seated)
    {second : Nat} {later : Job} {laterPass : Pass} (hlt : number < second)
    (hjob : service.jobs[number]? = some job) (hlater : service.jobs[second]? = some later)
    (hpass : job.pass? = some pass) (hlaterPass : later.pass? = some laterPass)
    (hsession : pass.session = laterPass.session) : service.isSuperseded pass = true := by
  obtain ⟨-, standing, hstanding, htoken⟩ := hpasses.known hjob hpass
  obtain ⟨-, found, hfound, hlaterToken⟩ := hpasses.known hlater hlaterPass
  rw [← hsession] at hfound
  obtain rfl := Option.some.inj (hstanding.symm.trans hfound)
  have htokens := (hpasses.ordered hlt hjob hlater hpass hlaterPass).2 hsession
  have htidy := (hseated.isSound hstanding).slot
  rw [isSuperseded_eq hstanding]
  apply htidy.others htoken
  intro hpending
  have hlast := (htidy.pending hpending).1
  omega

/-- What a superseded pass can do before its merge is to notice it. -/
theorem stage_of_isSuperseded (h : Progress service number job next)
    (hpass : job.pass? = some pass) (hrank : job.stage.rank < 3)
    (hlate : service.isSuperseded pass = true) :
    next = service.setStage number (.ended .superseded) := by
  have hsame : ∀ {other : Pass}, job.pass? = some other → service.isSuperseded other = true := by
    intro other hother
    obtain rfl := Option.some.inj (hpass.symm.trans hother)
    exact hlate
  cases h with
  | superseded => rfl
  | due hother hstage hlive => cases (hsame hother).symm.trans hlive
  | extracted hother hstage hlive => cases (hsame hother).symm.trans hlive
  | validated hother hstage hlive => cases (hsame hother).symm.trans hlive
  | loaded hstage | unloaded hstage | merged hstage | finished hstage | listed hstage
  | unlisted hstage | delivered hstage | admitted _ hstage | unheard _ hstage =>
      rw [hstage] at hrank
      simp [Stage.rank] at hrank

/-- A job that was at an early stage when it was superseded is still there, or has noticed
it. -/
structure Shelved (service : Service) (number : Nat) (job : Job) (pass : Pass) : Prop where
  job : service.jobs[number]? = some job ∨
    service.jobs[number]? = some (job.withStage (.ended .superseded))
  isSuperseded : service.isSuperseded pass = true

/-- A step of a superseded job changes nothing but its own stage. -/
theorem Shelved.eq_or_eq (h : service.Shelved number job pass) (hpass : job.pass? = some pass)
    (hrank : job.stage.rank < 3) (hhappens : Happens service (.step (.job number)) next) :
    next = service ∨ next = service.setStage number (.ended .superseded) := by
  rcases h.job with hjob | hjob
  · exact (hhappens.eq_or_progress hjob).imp_right fun hprogress =>
      stage_of_isSuperseded hprogress hpass hrank h.isSuperseded
  · left
    refine (hhappens.eq_or_progress hjob).resolve_right ?_
    intro hprogress
    -- Nothing comes after the end of a job.
    obtain ⟨stage, -, hpassage⟩ := passes_of_progress hprogress
    have hbefore := hpassage.before_lt
    simp [Stage.rank] at hbefore

theorem Shelved.happens (h : service.Shelved number job pass) (hpass : job.pass? = some pass)
    (hrank : job.stage.rank < 3) (hpasses : service.PassesInOrder)
    (hhappens : Happens service move next) : next.Shelved number job pass := by
  have hlater : ∀ {found : Job}, service.jobs[number]? = some found → found.pass? = some pass →
      next.isSuperseded pass = true :=
    fun hfound hsame => hhappens.isSuperseded hpasses hfound hsame h.isSuperseded
  have hnext : next.isSuperseded pass = true := by
    rcases h.job with hjob | hjob
    · exact hlater hjob hpass
    · exact hlater hjob hpass
  refine ⟨?_, hnext⟩
  by_cases hmove : move = .step (.job number)
  · subst hmove
    rcases h.eq_or_eq hpass hrank hhappens with rfl | rfl
    · exact h.job
    · right
      rcases h.job with hjob | hjob
      · exact getElem?_jobs_setStage hjob _
      · exact getElem?_jobs_setStage hjob _
  · -- Only its own steps change a job.
    have hkept : ∀ {found : Job}, service.jobs[number]? = some found →
        next.jobs[number]? = some found := by
      intro found hfound
      obtain ⟨stage, hstage, -, hsame⟩ := hhappens.jobsGo.getElem? hfound
      rw [hstage, hsame hmove]
      rfl
    exact h.job.imp hkept hkept

/-- **A pass that is superseded before it asks for its merge never merges.** -/
theorem Run.shelved (run : Run) {moment later : ℕ} (hle : moment ≤ later)
    (h : (run.state moment).Shelved number job pass) (hpass : job.pass? = some pass)
    (hrank : job.stage.rank < 3) : (run.state later).Shelved number job pass := by
  induction hle with
  | refl => exact h
  | step hle ih => exact ih.happens hpass hrank (run.passesInOrder _) (run.happens _)

end PlcTags.Service
