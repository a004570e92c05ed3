import PlcTags.Proofs.Service.Turns

/-!
# Passes merge in the order of their edits

A pass that comes to the line for the merges of its project finds no later pass of its
session there: if there were one, it would have been superseded before.  So the passes of a
session on a project stand in line in the order of their edits (`PassesWait`), and since
nobody overtakes anybody in a line, they also get their turns in this order
(`Run.passes_pairwise`).
-/

namespace PlcTags.Service

open Live

variable {service next : Service} {move : Move} {number first second : Nat} {job later : Job}
  {calls : List MergeCall}

/-- Two passes of one session on one project, in the order of their edits. -/
structure Successive (service : Service) (first second : Nat) (job later : Job) : Prop where
  lt : first < second
  first : service.jobs[first]? = some job
  second : service.jobs[second]? = some later
  session : ∃ pass laterPass, job.pass? = some pass ∧ later.pass? = some laterPass ∧
    pass.session = laterPass.session
  project : job.project = later.project

/-! ## What becomes of a line -/

/-- What a move does to the line for merges. -/
inductive MergesGo (service next : Service) : Prop where
  | stay (hmerges : next.merges = service.merges)
  | ask (project : Int) (party : Party) (hmerges : next.merges = service.merges.ask project party)
  /-- Only those leave the line whose merge is over. -/
  | release {number : Nat} {job : Job} (project : Int)
      (hmerges : next.merges = service.merges.release project (.job number))
      (hjob : next.jobs[number]? = some job) (hrank : 5 ≤ job.stage.rank)

theorem Happens.mergesGo (h : Happens service move next) : MergesGo service next := by
  cases h with
  | @progress number job next hjob hstep hprogress =>
      obtain ⟨stage, hjobs, hpassage⟩ := jobs_of_passes (passes_of_progress hprogress) hjob
      have hlater : next.jobs[number]? = some (job.withStage stage) := by
        rw [hjobs, List.getElem?_set_self (List.getElem?_eq_some_iff.mp hjob).1]
      generalize hbefore : job.stage.rank = before at hpassage
      generalize hafter : stage.rank = after at hpassage
      generalize hmerges : next.merges = merges at hpassage
      generalize next.announcements = announcements at hpassage
      cases hpassage with
      | asks => exact .ask _ _ hmerges
      | fails hlast => exact .release _ hmerges hlater (by show 5 ≤ stage.rank; omega)
      | announces => exact .release _ hmerges hlater (by show 5 ≤ stage.rank; omega)
      | ends => exact .release _ hmerges hlater (by show 5 ≤ stage.rank; omega)
      | _ => exact .stay hmerges
  | conduct hmove hconducts hend htasks => exact .stay htasks.merges
  | crash hmove hconducts htasks => exact .stay htasks.merges
  | opened hmove hstandings hregistry hannouncements htasks => exact .stay htasks.merges
  | messages hmove hseats hannouncements htasks => exact .stay htasks.merges
  | merge hmove hpurpose => exact .ask _ _ rfl
  | _ => exact .stay rfl

theorem mem_line_of_rank (hline : service.InLine) (hjob : service.jobs[number]? = some job)
    (hrank : job.stage.rank = 3) : (job.project, .job number) ∈ service.merges.line := by
  rw [hline.merges.mem_iff, (wanted_of_getElem? hjob).1, Job.mergeWanted, if_pos (.inl hrank)]

/-- Nobody is overtaken in a line. -/
theorem MergesGo.before (h : MergesGo service next) {job later : Job} {project : Int}
    (hbefore : service.merges.Before project (.job first) (.job second))
    (hfirst : next.jobs[first]? = some job) (hsecond : next.jobs[second]? = some later)
    (hrank : job.stage.rank < 5) (hlater : later.stage.rank < 5) :
    next.merges.Before project (.job first) (.job second) := by
  cases h with
  | stay hmerges => rwa [hmerges]
  | ask project' party hmerges =>
      rw [hmerges]
      exact hbefore.ask
  | @release number gone project' hmerges hgone hover =>
      rw [hmerges]
      apply hbefore.release
      · intro hsame
        obtain rfl := Party.job.inj hsame
        obtain rfl := Option.some.inj (hgone.symm.trans hfirst)
        omega
      · intro hsame
        obtain rfl := Party.job.inj hsame
        obtain rfl := Option.some.inj (hgone.symm.trans hsecond)
        omega

/-- Who comes to a line gets in line behind those who are there. -/
theorem MergesGo.before_of_new (h : MergesGo service next) {project : Int}
    (hfirst : (project, .job first) ∈ next.merges.line) (hne : first ≠ second)
    (hnew : (project, .job second) ∉ service.merges.line)
    (hsecond : (project, .job second) ∈ next.merges.line) :
    next.merges.Before project (.job first) (.job second) := by
  cases h with
  | stay hmerges =>
      rw [hmerges] at hsecond
      exact absurd hsecond hnew
  | ask project' party hmerges =>
      rw [hmerges, Locks.ask, List.mem_append, List.mem_singleton] at hfirst hsecond
      obtain ⟨rfl, rfl⟩ := Prod.mk.inj (hsecond.resolve_left hnew)
      rw [hmerges]
      refine Locks.before_ask (hfirst.resolve_right ?_)
      intro hsame
      exact hne (Party.job.inj (Prod.mk.inj hsame).2)
  | release project' hmerges hgone hover =>
      rw [hmerges] at hsecond
      exact absurd (List.mem_of_mem_erase hsecond) hnew

/-! ## Passes in line -/

/-- A pass that waits for its merge stands before all later ones of its session on its
project, and none of them has had its turn. -/
def PassesWait (service : Service) (calls : List MergeCall) : Prop :=
  ∀ {first second : Nat} {job later : Job}, service.Successive first second job later →
    job.stage.rank = 3 → (∀ call ∈ calls, call.number ≠ second) ∧
      (later.stage.rank = 3 → service.merges.Before job.project (.job first) (.job second))

/-- Two passes that are there have been there before, or the later one is new. -/
theorem JobsGo.successive (hgo : JobsGo service move next)
    (h : next.Successive first second job later) :
    (∃ job' later', service.Successive first second job' later' ∧
        job = job'.withStage job.stage ∧ later = later'.withStage later.stage) ∨
      second = service.jobs.length ∧ next.jobs = service.jobs ++ [later] := by
  obtain ⟨pass, laterPass, hpass, hlaterPass, hsession⟩ := h.session
  rcases hgo.of_getElem? h.second with ⟨later', hsecond, hlater⟩ | hnew
  · rcases hgo.of_getElem? h.first with ⟨job', hfirst, hjob⟩ | ⟨hlength, -⟩
    · left
      rw [hjob] at hpass
      rw [hlater] at hlaterPass
      refine ⟨job', later', ⟨h.lt, hfirst, hsecond, ⟨pass, laterPass, hpass, hlaterPass, hsession⟩,
        ?_⟩, hjob, hlater⟩
      have hproject := h.project
      rwa [hjob, hlater] at hproject
    · -- Nothing comes after a job that is new.
      have hbound := (List.getElem?_eq_some_iff.mp hsecond).1
      have hlt := h.lt
      omega
  · exact .inr hnew

/-- A pass that is in line now and has a later one was in line before. -/
theorem Successive.rank_eq (h : service.Successive first second job later)
    (hpasses : service.PassesInOrder) (hseated : service.Seated)
    (hhappens : Happens service move next) {stage : Stage}
    (hfirst : next.jobs[first]? = some (job.withStage stage)) (hrank : stage.rank = 3) :
    job.stage.rank = 3 := by
  obtain ⟨stage', hstage', hle, hsame⟩ := hhappens.jobsGo.getElem? h.first
  obtain rfl : stage' = stage :=
    congrArg Job.stage (Option.some.inj (hstage'.symm.trans hfirst))
  by_contra hne
  have hearly : job.stage.rank < 3 := by omega
  have hmove : move = .step (.job first) := by
    by_contra hmove
    rw [hsame hmove] at hrank
    exact hne hrank
  obtain ⟨pass, laterPass, hpass, hlaterPass, hsession⟩ := h.session
  have hlate := isSuperseded_of_lt hpasses hseated h.lt h.first h.second hpass hlaterPass hsession
  subst hmove
  have hshelved : service.Shelved first job pass := ⟨.inl h.first, hlate⟩
  rcases hshelved.eq_or_eq hpass hearly hhappens with rfl | rfl
  · have hkept := Option.some.inj (h.first.symm.trans hfirst)
    exact hne (by rw [hkept]; exact hrank)
  · have hended := Option.some.inj ((getElem?_jobs_setStage h.first _).symm.trans hfirst)
    have hstage : Stage.ended .superseded = stage' := congrArg Job.stage hended
    rw [← hstage] at hrank
    cases hrank

/-- The job of a call that is new is the one whose turn it is. -/
theorem numbers_recorded (h : Happens service move next) (calls : List MergeCall) :
    (service.recorded next calls move).map MergeCall.number = calls.map MergeCall.number ∨
      ∃ number job, service.jobs[number]? = some job ∧ job.stage.rank = 3 ∧
        service.merges.holder? job.project = some (.job number) ∧
        (service.recorded next calls move).map MergeCall.number =
          calls.map MergeCall.number ++ [number] := by
  have hcalls := h.callsGo calls
  generalize service.recorded next calls move = after at hcalls ⊢
  cases hcalls with
  | stay => exact .inl rfl
  | load hmove hstage hturn hloads hsteps =>
      exact .inr ⟨_, _, hsteps.before, by rw [hstage]; rfl, beq_iff_eq.mp hturn, List.map_append⟩
  | fail hmove hstage hturn hfails hsteps =>
      exact .inr ⟨_, _, hsteps.before, by rw [hstage]; rfl, beq_iff_eq.mp hturn, List.map_append⟩
  | take =>
      left
      rw [map_onCall]
      exact fun _ => rfl
  | finish =>
      left
      rw [map_onCall]
      exact fun _ => rfl

/-- A job that has not called, and whose turn it is not, has not called after the move. -/
theorem number_ne_recorded (h : Happens service move next)
    (hold : ∀ call ∈ calls, call.number ≠ second)
    (hturn : ∀ {job : Job}, service.jobs[second]? = some job → job.stage.rank = 3 →
      service.merges.holder? job.project ≠ some (.job second)) :
    ∀ call ∈ service.recorded next calls move, call.number ≠ second := by
  have hmem : ∀ {calls : List MergeCall}, second ∉ calls.map MergeCall.number ↔
      ∀ call ∈ calls, call.number ≠ second := by
    simp
  rw [← hmem] at hold ⊢
  rcases numbers_recorded h calls with hsame | ⟨number, job, hjob, hrank, hholder, hadded⟩
  · rwa [hsame]
  · rw [hadded, List.mem_append, List.mem_singleton, not_or]
    refine ⟨hold, ?_⟩
    rintro rfl
    exact hturn hjob hrank hholder

/-- A job that is new has not called. -/
theorem Recorded.number_ne_length (h : service.Recorded calls)
    (hhappens : Happens service move next) :
    ∀ call ∈ service.recorded next calls move, call.number ≠ service.jobs.length := by
  refine number_ne_recorded hhappens ?_ ?_
  · intro call hcall hnumber
    obtain ⟨job, hjob, -⟩ := h.known call hcall
    exact Nat.ne_of_lt (List.getElem?_eq_some_iff.mp hjob).1 hnumber
  · intro job hjob
    exact absurd (List.getElem?_eq_some_iff.mp hjob).1 (Nat.lt_irrefl _)

/-- A pass before which another one waits does not get its turn. -/
theorem PassesWait.ne_of_holder (h : service.PassesWait calls) (hline : service.InLine)
    (hsuccessive : service.Successive first second job later) (hrank : job.stage.rank = 3)
    (hlater : later.stage.rank = 3) :
    service.merges.holder? later.project ≠ some (.job second) := by
  rw [← hsuccessive.project]
  exact ((h hsuccessive hrank).2 hlater).holder?_ne hline.merges.nodup

theorem PassesWait.happens (h : service.PassesWait calls) (hline : service.InLine)
    (hafter : next.InLine) (hrecorded : service.Recorded calls)
    (hpasses : service.PassesInOrder) (hseated : service.Seated)
    (hhappens : Happens service move next) :
    next.PassesWait (service.recorded next calls move) := by
  intro first second job later hsuccessive hrank
  rcases hhappens.jobsGo.successive hsuccessive with
    ⟨job', later', hbefore, hjob, hlater⟩ | ⟨rfl, hjobs⟩
  · have hfirst := hsuccessive.first
    rw [hjob] at hfirst
    have hrank' : job'.stage.rank = 3 := hbefore.rank_eq hpasses hseated hhappens hfirst hrank
    obtain ⟨hcalls, hwaits⟩ := h hbefore hrank'
    constructor
    · refine number_ne_recorded hhappens hcalls ?_
      intro found hfound hqueued
      obtain rfl := Option.some.inj (hbefore.second.symm.trans hfound)
      exact h.ne_of_holder hline hbefore hrank' hqueued
    · intro hlaterRank
      have hproject : job.project = job'.project := by rw [hjob]; rfl
      by_cases hlaterRank' : later'.stage.rank = 3
      · rw [hproject]
        exact hhappens.mergesGo.before (hwaits hlaterRank') hsuccessive.first hsuccessive.second
          (by omega) (by omega)
      · refine hhappens.mergesGo.before_of_new (mem_line_of_rank hafter hsuccessive.first hrank)
          (Nat.ne_of_lt hsuccessive.lt) ?_ ?_
        · intro hmem
          -- Who is in line has come as far as that, and is not beyond it now.
          rw [hproject, hbefore.project, hline.merges.mem_iff,
            (wanted_of_getElem? hbefore.second).1] at hmem
          obtain ⟨hthere, -⟩ := Option.ite_none_right_eq_some.mp hmem
          obtain ⟨stage, hstage, hle, -⟩ := hhappens.jobsGo.getElem? hbefore.second
          obtain rfl := Option.some.inj (hstage.symm.trans hsuccessive.second)
          rw [Job.stage_withStage] at hlaterRank
          omega
        · rw [hsuccessive.project]
          exact mem_line_of_rank hafter hsuccessive.second hlaterRank
  · obtain ⟨pass, laterPass, -, hlaterPass, -⟩ := hsuccessive.session
    obtain ⟨delay, -, hdelayed⟩ := (hhappens.newPass hjobs hlaterPass).delayed
    refine ⟨hrecorded.number_ne_length hhappens, fun hwaits => ?_⟩
    rw [hdelayed] at hwaits
    cases hwaits

theorem Run.passesWait (run : Run) (moment : ℕ) :
    (run.state moment).PassesWait (run.calls moment) := by
  induction moment with
  | zero =>
      intro first second job later hsuccessive
      have hjob := hsuccessive.first
      rw [jobs_zero] at hjob
      cases hjob
  | succ moment ih =>
      exact ih.happens (run.inLine moment) (run.inLine (moment + 1)) (run.recorded_calls moment)
        (run.passesInOrder moment) (run.seated moment) (run.happens moment)

/-! ## Turns -/

/-- The calls of the passes of a session on a project come in the order of their edits. -/
theorem Run.passes_pairwise (run : Run) (moment : ℕ) :
    ((run.calls moment).map MergeCall.number).Pairwise fun first second =>
      ∀ job later, ¬ (run.state moment).Successive second first job later := by
  induction moment with
  | zero => exact .nil
  | succ moment ih =>
      have hknown : ∀ number ∈ (run.calls moment).map MergeCall.number,
          number < (run.state moment).jobs.length := by
        intro number hnumber
        obtain ⟨call, hcall, rfl⟩ := List.mem_map.mp hnumber
        obtain ⟨job, hjob, -⟩ := (run.recorded_calls moment).known call hcall
        exact (List.getElem?_eq_some_iff.mp hjob).1
      -- Jobs that were there before are no other jobs now.
      have hkept : ∀ {first second : Nat} {job later : Job},
          first < (run.state moment).jobs.length →
          (run.state (moment + 1)).Successive second first job later →
            ∃ job' later', (run.state moment).Successive second first job' later' ∧
              job = job'.withStage job.stage := by
        intro first second job later hlt hsuccessive
        rcases (run.happens moment).jobsGo.successive hsuccessive with
          ⟨job', later', hbefore, hjob, -⟩ | ⟨hlength, -⟩
        · exact ⟨job', later', hbefore, hjob⟩
        · omega
      have hold : ((run.calls moment).map MergeCall.number).Pairwise fun first second =>
          ∀ job later, ¬ (run.state (moment + 1)).Successive second first job later := by
        refine ih.imp_of_mem ?_
        intro first second hfirst hsecond hbefore job later hsuccessive
        obtain ⟨job', later', hsuccessive', -⟩ := hkept (hknown first hfirst) hsuccessive
        exact hbefore job' later' hsuccessive'
      show ((Service.recorded _ _ (run.calls moment) _).map MergeCall.number).Pairwise _
      rcases numbers_recorded (run.happens moment) (run.calls moment) with
        hsame | ⟨number, job, hjob, hrank, -, hadded⟩
      · exact hsame ▸ hold
      · rw [hadded]
        refine List.pairwise_append.mpr ⟨hold, List.pairwise_singleton _ _, ?_⟩
        intro first hfirst last hlast
        obtain rfl := List.mem_singleton.mp hlast
        intro found later hsuccessive
        obtain ⟨job', later', hsuccessive', -⟩ := hkept (hknown first hfirst) hsuccessive
        obtain rfl := Option.some.inj (hjob.symm.trans hsuccessive'.first)
        obtain ⟨call, hcall, rfl⟩ := List.mem_map.mp hfirst
        exact (run.passesWait moment hsuccessive' hrank).1 call hcall rfl

end PlcTags.Service
