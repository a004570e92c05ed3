import PlcTags.Proofs.Service.Callers

/-!
# One merge at a time

Into each project one job merges at a time, because it holds the lock from the moment at
which it reads the project to the end of its merge (`InLine.eq_of_merging`).  So of the
calls on a project only the last one can be on its way (`Run.inTurn`).

`TurnGo` lists what a moment can do to the merges into one project; what happens to other
projects does not matter there.
-/

namespace PlcTags.Service

open Live

variable {service next : Service} {move : Move} {number : Nat} {job : Job} {stage : Stage}
  {calls later : List MergeCall} {project : Int}

/-! ## Who merges -/

theorem mergeHeld_of_rank (hjob : service.jobs[number]? = some job) (hrank : job.stage.rank = 4) :
    service.mergeHeld (.job number) = some job.project := by
  rw [(wanted_of_getElem? hjob).2.1, Job.mergeHeld, if_pos hrank]

/-- One job at a time merges into a project. -/
theorem InLine.eq_of_merging (h : service.InLine) {other : Nat} {found : Job}
    (hjob : service.jobs[number]? = some job) (hrank : job.stage.rank = 4)
    (hfound : service.jobs[other]? = some found) (hother : found.stage.rank = 4)
    (hproject : found.project = job.project) : other = number := by
  have hheld := mergeHeld_of_rank hjob hrank
  have hheld' := mergeHeld_of_rank hfound hother
  rw [hproject] at hheld'
  exact Party.job.inj (h.merges.eq_of_holds hheld' hheld)

/-- Nobody merges into the project when a job that has waited gets its turn. -/
theorem InLine.rank_ne_of_turn (h : service.InLine)
    (hturn : service.merges.isHeldBy job.project (.job number) = true)
    (hjob : service.jobs[number]? = some job) (hrank : job.stage.rank ≠ 4) (other : Nat)
    (found : Job) (hfound : service.jobs[other]? = some found)
    (hproject : found.project = job.project) : found.stage.rank ≠ 4 := by
  intro hother
  have hheld := mergeHeld_of_rank hfound hother
  rw [hproject] at hheld
  have hholder : service.merges.holder? job.project = some (.job number) := beq_iff_eq.mp hturn
  obtain rfl : other = number :=
    Party.job.inj (Option.some.inj ((h.merges.first hheld).symm.trans hholder))
  obtain rfl := Option.some.inj (hjob.symm.trans hfound)
  exact hrank hother

/-- Jobs that merge do so into their own projects. -/
def MergesOwn (service : Service) : Prop :=
  ∀ {number : Nat} {job : Job} {merge : Merge} {rest : List Tag} {diagnostics : List Diagnostic},
    service.jobs[number]? = some job → job.stage = .merging merge rest diagnostics →
      merge.project = job.project

theorem MergesOwn.steps (h : service.MergesOwn) (hsteps : service.Steps number job stage next)
    (hstage : ∀ {merge : Merge} {rest : List Tag} {diagnostics : List Diagnostic},
      stage = .merging merge rest diagnostics → merge.project = job.project) :
    next.MergesOwn := by
  intro other found merge rest diagnostics hfound hmerging
  by_cases hother : other = number
  · subst hother
    obtain rfl := Option.some.inj (hsteps.getElem?_self.symm.trans hfound)
    exact hstage hmerging
  · rw [hsteps.getElem?_of_ne hother] at hfound
    exact h hfound hmerging

theorem MergesOwn.happens (h : service.MergesOwn) (hhappens : Happens service move next) :
    next.MergesOwn := by
  obtain ⟨later, hcalls⟩ : ∃ later, CallsGo service move [] next later :=
    ⟨_, hhappens.callsGo []⟩
  cases hcalls with
  | stay hstore hmerging hwaiting hresults =>
      intro number job merge rest diagnostics hjob hstage
      exact h ((hmerging (by rw [hstage]; rfl)).mp hjob) hstage
  | load hmove hstage hturn hloads hsteps =>
      refine h.steps hsteps ?_
      intro merge rest diagnostics hmerging
      cases hmerging
      rfl
  | fail hmove hstage hturn hfails hsteps hrank hresult =>
      refine h.steps hsteps ?_
      intro merge rest diagnostics hmerging
      rw [hmerging] at hrank
      simp [Stage.rank] at hrank
  | take hmove hstage hsteps =>
      refine h.steps hsteps ?_
      intro merge rest diagnostics hmerging
      cases hmerging
      exact (Merge.step_frame ..).1.trans (h hsteps.before hstage)
  | finish hmove hstage hsteps hrank =>
      refine h.steps hsteps ?_
      intro merge rest diagnostics hmerging
      rw [hmerging] at hrank
      simp [Stage.rank] at hrank

theorem Run.mergesOwn (run : Run) (moment : ℕ) : (run.state moment).MergesOwn := by
  apply Run.invariant _ MergesOwn.happens
  intro settings database supply service hstart
  obtain ⟨events, -, rfl⟩ := Option.map_eq_some_iff.mp hstart
  exact nofun

/-- A job merges into a project and has come this far. -/
def MergesAt (service : Service) (project : Int) (number : Nat) (merge : Merge)
    (rest : List Tag) : Prop :=
  ∃ job diagnostics, service.jobs[number]? = some job ∧ job.project = project ∧
    job.stage = .merging merge rest diagnostics

/-- What a moment does to the merges into a project, and to the calls on it. -/
inductive TurnGo (service : Service) (move : Move) (project : Int) (next : Service)
    (calls : List MergeCall) : List MergeCall → Prop where
  /-- Nothing happens to them, unless somebody else has access to the database. -/
  | quiet (hstore : (∀ key, next.database.store.findRow? project key =
          service.database.store.findRow? project key) ∨
        ∃ database, move = .access database ∧ next.database = database)
      (hmerging : ∀ {number : Nat} {merge : Merge} {rest : List Tag},
        next.MergesAt project number merge rest ↔ service.MergesAt project number merge rest) :
      TurnGo service move project next calls calls
  | load {number : Nat} {origin : Origin} {batch : List Tag} {stored : List StoredTag}
      (hfree : ∀ {number : Nat} {merge : Merge} {rest : List Tag},
        ¬ service.MergesAt project number merge rest)
      (hloads : service.database.list project = .ok stored)
      (hnow : ∀ {other : Nat} {merge : Merge} {rest : List Tag},
        next.MergesAt project other merge rest ↔
          other = number ∧ merge = .start project origin stored ∧ rest = batch)
      (hdatabase : next.database = service.database) :
      TurnGo service move project next calls (calls ++
        [{ number, project, origin, batch, loading := service.database }])
  | fail {number : Nat} {origin : Origin} {batch : List Tag} {failure : Failure}
      (hfree : ∀ {number : Nat} {merge : Merge} {rest : List Tag},
        ¬ service.MergesAt project number merge rest)
      (hfails : service.database.list project = .error failure)
      (hnow : ∀ {other : Nat} {merge : Merge} {rest : List Tag},
        ¬ next.MergesAt project other merge rest)
      (hdatabase : next.database = service.database) :
      TurnGo service move project next calls (calls ++
        [{ number, project, origin, batch, loading := service.database,
           returned := some (.error failure) }])
  | take {number : Nat} {merge : Merge} {tag : Tag} {rest : List Tag}
      (hmerges : service.MergesAt project number merge (tag :: rest))
      (hnow : ∀ {other : Nat} {after : Merge} {left : List Tag},
        next.MergesAt project other after left ↔ other = number ∧
          after = (merge.step service.supply.stamp service.database tag).1 ∧ left = rest)
      (hdatabase : next.database = (merge.step service.supply.stamp service.database tag).2) :
      TurnGo service move project next calls (onCall number (fun call =>
        { call with
          turns := call.turns ++ [service.database]
          inserted := call.inserted ++
            if merge.report.inserted <
              (merge.step service.supply.stamp service.database tag).1.report.inserted
            then [tag.key] else [] }) calls)
  | finish {number : Nat} {merge : Merge} (hmerges : service.MergesAt project number merge [])
      (hnow : ∀ {other : Nat} {after : Merge} {left : List Tag},
        ¬ next.MergesAt project other after left)
      (hdatabase : next.database = service.database) :
      TurnGo service move project next calls
        (onCall number ({ · with returned := some (.ok merge.report) }) calls)

theorem rank_of_mergesAt {merge : Merge} {rest : List Tag}
    (h : service.MergesAt project number merge rest) :
    ∃ job, service.jobs[number]? = some job ∧ job.project = project ∧ job.stage.rank = 4 := by
  obtain ⟨job, diagnostics, hjob, hproject, hstage⟩ := h
  exact ⟨job, hjob, hproject, by rw [hstage]; rfl⟩

/-- The step of a job on another project. -/
theorem Steps.mergesAt_iff_of_ne (h : service.Steps number job stage next)
    (hne : job.project ≠ project) {other : Nat} {merge : Merge} {rest : List Tag} :
    next.MergesAt project other merge rest ↔ service.MergesAt project other merge rest := by
  unfold MergesAt
  by_cases hother : other = number
  · subst hother
    rw [h.getElem?_self, h.before]
    constructor
    · rintro ⟨found, diagnostics, hfound, hproject, -⟩
      obtain rfl := Option.some.inj hfound
      exact absurd hproject hne
    · rintro ⟨found, diagnostics, hfound, hproject, -⟩
      obtain rfl := Option.some.inj hfound
      exact absurd hproject hne
  · rw [h.getElem?_of_ne hother]

/-- After the step of a job that merges, it is the one that merges into its project. -/
theorem Steps.mergesAt_iff {after : Merge} {left : List Tag} {diagnostics : List Diagnostic}
    (h : service.Steps number job (.merging after left diagnostics) next) (hlater : next.InLine)
    {other : Nat} {merge : Merge} {rest : List Tag} :
    next.MergesAt job.project other merge rest ↔
      other = number ∧ merge = after ∧ rest = left := by
  constructor
  · rintro ⟨found, problems, hfound, hproject, hstage⟩
    obtain rfl := hlater.eq_of_merging h.getElem?_self rfl hfound (by rw [hstage]; rfl) hproject
    obtain rfl := Option.some.inj (h.getElem?_self.symm.trans hfound)
    cases hstage
    exact ⟨rfl, rfl, rfl⟩
  · rintro ⟨rfl, rfl, rfl⟩
    exact ⟨_, diagnostics, h.getElem?_self, rfl, rfl⟩

/-- After the step of a job that does not merge any more, nobody merges into its project. -/
theorem Steps.not_mergesAt (h : service.Steps number job stage next) (hrank : stage.rank ≠ 4)
    (hothers : ∀ other found, other ≠ number → service.jobs[other]? = some found →
      found.project = job.project → found.stage.rank ≠ 4)
    {other : Nat} {merge : Merge} {rest : List Tag} :
    ¬ next.MergesAt job.project other merge rest := by
  intro hmerges
  obtain ⟨found, hfound, hproject, hmerging⟩ := rank_of_mergesAt hmerges
  by_cases hother : other = number
  · subst hother
    obtain rfl := Option.some.inj (h.getElem?_self.symm.trans hfound)
    exact hrank hmerging
  · rw [h.getElem?_of_ne hother] at hfound
    exact hothers other found hother hfound hproject hmerging

/-- The calls on a project are not those of a job on another one. -/
theorem Recorded.number_ne_of_project (h : service.Recorded calls)
    (hjob : service.jobs[number]? = some job) (hne : job.project ≠ project) :
    ∀ call ∈ callsOn project calls, call.number ≠ number := by
  rintro call hcall rfl
  obtain ⟨hmem, hproject⟩ := List.mem_filter.mp hcall
  obtain ⟨found, hfound, hsame, -⟩ := h.known call hmem
  obtain rfl := Option.some.inj (hjob.symm.trans hfound)
  exact hne (hsame.trans (beq_iff_eq.mp hproject))

/-- **What a moment does to the merges into a project.** -/
theorem Happens.turnGo (hhappens : Happens service move next) (hline : service.InLine)
    (hlater : next.InLine) (hrecorded : service.Recorded calls) (howns : service.MergesOwn)
    (project : Int) :
    TurnGo service move project next (callsOn project calls)
      (callsOn project (service.recorded next calls move)) := by
  have hcalls := hhappens.callsGo calls
  generalize service.recorded next calls move = later at hcalls ⊢
  cases hcalls with
  | stay hstore hmerging hwaiting hresults =>
      refine .quiet (hstore.imp (fun hsame key => by rw [hsame]) id) ?_
      intro number merge rest
      constructor
      · rintro ⟨job, diagnostics, hjob, hproject, hstage⟩
        exact ⟨job, diagnostics, (hmerging (by rw [hstage]; rfl)).mp hjob, hproject, hstage⟩
      · rintro ⟨job, diagnostics, hjob, hproject, hstage⟩
        exact ⟨job, diagnostics, (hmerging (by rw [hstage]; rfl)).mpr hjob, hproject, hstage⟩
  | @load number job origin batch diagnostics stored hmove hstage hturn hloads hsteps hdatabase =>
      by_cases hown : job.project = project
      · rw [callsOn_concat_of_eq hown]
        subst hown
        refine .load ?_ hloads (hsteps.mergesAt_iff hlater) hdatabase
        -- The turn of the job keeps all other merges out of the project.
        intro other merge rest hmerges
        obtain ⟨found, hfound, hproject, hmerging⟩ := rank_of_mergesAt hmerges
        exact hline.rank_ne_of_turn hturn hsteps.before (by simp [hstage, Stage.rank]) other found
          hfound hproject hmerging
      · rw [callsOn_concat_of_ne hown]
        exact .quiet (.inl fun key => by rw [hdatabase]) (hsteps.mergesAt_iff_of_ne hown)
  | @fail number job origin batch diagnostics failure stage hmove hstage hturn hfails hsteps hrank
      hresult hdatabase =>
      by_cases hown : job.project = project
      · rw [callsOn_concat_of_eq hown]
        subst hown
        have hfree := hline.rank_ne_of_turn hturn hsteps.before (by simp [hstage, Stage.rank])
        refine .fail ?_ hfails (hsteps.not_mergesAt (by omega) ?_) hdatabase
        · intro other merge rest hmerges
          obtain ⟨found, hfound, hproject, hmerging⟩ := rank_of_mergesAt hmerges
          exact hfree other found hfound hproject hmerging
        · exact fun other found _ hfound hproject => hfree other found hfound hproject
      · rw [callsOn_concat_of_ne hown]
        exact .quiet (.inl fun key => by rw [hdatabase]) (hsteps.mergesAt_iff_of_ne hown)
  | @take number job merge tag rest diagnostics hmove hstage hsteps hdatabase =>
      rw [callsOn_onCall]
      · by_cases hown : job.project = project
        · subst hown
          exact .take ⟨job, diagnostics, hsteps.before, rfl, hstage⟩ (hsteps.mergesAt_iff hlater)
            hdatabase
        · rw [onCall_of_ne (hrecorded.number_ne_of_project hsteps.before hown)]
          refine .quiet (.inl ?_) (hsteps.mergesAt_iff_of_ne hown)
          intro key
          rw [hdatabase]
          -- A merge writes rows of its own project only, and this one has another project.
          refine Merge.findRow?_step_of_ne ?_ _ _ tag key
          rw [howns hsteps.before hstage]
          exact Ne.symm hown
      · exact fun _ => rfl
  | @finish number job merge diagnostics stage hmove hstage hsteps hrank hresult hdatabase =>
      rw [callsOn_onCall]
      · by_cases hown : job.project = project
        · subst hown
          refine .finish ⟨job, diagnostics, hsteps.before, rfl, hstage⟩
            (hsteps.not_mergesAt (by omega) ?_) hdatabase
          intro other found hother hfound hproject hmerging
          exact hother (hline.eq_of_merging hsteps.before (by rw [hstage]; rfl) hfound hmerging
            hproject)
        · rw [onCall_of_ne (hrecorded.number_ne_of_project hsteps.before hown)]
          exact .quiet (.inl fun key => by rw [hdatabase]) (hsteps.mergesAt_iff_of_ne hown)
      · exact fun _ => rfl

/-! ## Who is on the way -/

/-- A call is on its way, and these tags of its batch are left to its merge. -/
structure IsUnderway (call : MergeCall) (merge : Merge) (rest : List Tag) : Prop where
  project : merge.project = call.project
  returned : call.returned = none
  batch : ∃ taken, call.batch = taken ++ rest ∧ taken.length = call.turns.length

/-- Of the calls on a project only the last one can be on its way. -/
structure InTurn (service : Service) (project : Int) (calls : List MergeCall) : Prop where
  own : ∀ call ∈ calls, call.project = project
  merging : ∀ {number : Nat} {merge : Merge} {rest : List Tag},
    service.MergesAt project number merge rest →
      ∃ done call, calls = done ++ [call] ∧ call.number = number ∧ IsUnderway call merge rest ∧
        (∀ earlier ∈ done, earlier.number ≠ number) ∧
        ∀ earlier ∈ done, earlier.returned.isSome = true
  /-- While nobody merges into the project, all its calls have returned. -/
  idle : (∀ {number : Nat} {merge : Merge} {rest : List Tag},
    ¬ service.MergesAt project number merge rest) → ∀ call ∈ calls, call.returned.isSome = true
  /-- A call that reports has taken its whole batch. -/
  complete : ∀ call ∈ calls, ∀ report, call.returned = some (.ok report) →
    call.turns.length = call.batch.length
  /-- A call that fails has taken nothing. -/
  failed : ∀ call ∈ calls, ∀ failure, call.returned = some (.error failure) → call.turns = []

theorem InTurn.number_eq {other : Nat} {merge after : Merge} {rest left : List Tag}
    (h : service.InTurn project calls) (hmerges : service.MergesAt project number merge rest)
    (hother : service.MergesAt project other after left) : number = other := by
  obtain ⟨done, call, hcalls, rfl, -⟩ := h.merging hmerges
  obtain ⟨done', call', hcalls', rfl, -⟩ := h.merging hother
  obtain ⟨-, hlast⟩ := List.append_inj' (hcalls.symm.trans hcalls') rfl
  rw [List.singleton_inj.mp hlast]

/-- What holds of all calls and of one more. -/
theorem forall_mem_concat {holds : MergeCall → Prop} {call : MergeCall}
    (h : ∀ earlier ∈ calls, holds earlier) (hcall : holds call) :
    ∀ found ∈ calls ++ [call], holds found :=
  List.forall_mem_append.mpr ⟨h, List.forall_mem_singleton.mpr hcall⟩

theorem InTurn.go (h : service.InTurn project calls)
    (hgo : TurnGo service move project next calls later)
    (hdistinct : (later.map MergeCall.number).Nodup) : next.InTurn project later := by
  cases hgo with
  | quiet hstore hmerging =>
      refine ⟨h.own, fun hmerges => h.merging (hmerging.mp hmerges), ?_, h.complete, h.failed⟩
      intro hfree
      exact h.idle fun hmerges => hfree (hmerging.mpr hmerges)
  | @load number origin batch stored hfree hloads hnow hdatabase =>
      constructor
      · exact forall_mem_concat h.own rfl
      · intro other merge rest hmerges
        obtain ⟨rfl, rfl, rfl⟩ := hnow.mp hmerges
        exact ⟨calls, _, rfl, rfl, ⟨rfl, rfl, [], rfl, rfl⟩, ne_of_nodup_concat hdistinct,
          h.idle hfree⟩
      · exact fun hnone => absurd (hnow.mpr ⟨rfl, rfl, rfl⟩) hnone
      · exact forall_mem_concat h.complete nofun
      · exact forall_mem_concat h.failed nofun
  | fail hfree hfails hnow hdatabase =>
      constructor
      · exact forall_mem_concat h.own rfl
      · exact fun hmerges => absurd hmerges hnow
      · exact fun _ => forall_mem_concat (h.idle hfree) rfl
      · exact forall_mem_concat h.complete nofun
      · exact forall_mem_concat h.failed fun _ _ => rfl
  | @take number merge tag rest hmerges hnow hdatabase =>
      -- The merge that goes on is the last call, and it has taken all but what is left.
      obtain ⟨done, call, rfl, rfl, ⟨hproject, hreturned, taken, hbatch, hturns⟩, hearlier,
        hdone⟩ := h.merging hmerges
      rw [onCall_concat hearlier]
      obtain ⟨hown, hlast⟩ := List.forall_mem_append.mp h.own
      constructor
      · exact forall_mem_concat hown (hlast call List.mem_cons_self)
      · intro other after left hafter
        obtain ⟨rfl, rfl, rfl⟩ := hnow.mp hafter
        refine ⟨done, _, rfl, rfl, ⟨?_, hreturned, taken ++ [tag], ?_, ?_⟩, hearlier, hdone⟩
        · exact (Merge.step_frame ..).1.trans hproject
        · simp [hbatch]
        · simp [hturns]
      · exact fun hnone => absurd (hnow.mpr ⟨rfl, rfl, rfl⟩) hnone
      · refine forall_mem_concat (List.forall_mem_append.mp h.complete).1 ?_
        exact fun report hreport => by cases hreturned.symm.trans hreport
      · refine forall_mem_concat (List.forall_mem_append.mp h.failed).1 ?_
        exact fun failure hfailed => by cases hreturned.symm.trans hfailed
  | @finish number merge hmerges hnow hdatabase =>
      obtain ⟨done, call, rfl, rfl, ⟨hproject, hreturned, taken, hbatch, hturns⟩, hearlier,
        hdone⟩ := h.merging hmerges
      rw [onCall_concat hearlier]
      obtain ⟨hown, hlast⟩ := List.forall_mem_append.mp h.own
      constructor
      · exact forall_mem_concat hown (hlast call List.mem_cons_self)
      · exact fun hafter => absurd hafter hnow
      · exact fun _ => forall_mem_concat hdone rfl
      · refine forall_mem_concat (List.forall_mem_append.mp h.complete).1 ?_
        intro report _
        rw [List.append_nil] at hbatch
        show call.turns.length = call.batch.length
        rw [hbatch, hturns]
      · exact forall_mem_concat (List.forall_mem_append.mp h.failed).1 nofun

namespace Run

theorem turnGo (run : Run) (moment : ℕ) (project : Int) :
    TurnGo (run.state moment) (run.moves moment) project (run.state (moment + 1))
      (callsOn project (run.calls moment)) (callsOn project (run.calls (moment + 1))) :=
  (run.happens moment).turnGo (run.inLine moment) (run.inLine (moment + 1))
    (run.recorded_calls moment) (run.mergesOwn moment) project

theorem not_mergesAt_zero (run : Run) {merge : Merge} {rest : List Tag} :
    ¬ (run.state 0).MergesAt project number merge rest := by
  rintro ⟨job, diagnostics, hjob, -⟩
  rw [jobs_zero] at hjob
  cases hjob

/-- **The merges into a project take turns**, at every moment of a run. -/
theorem inTurn (run : Run) (moment : ℕ) (project : Int) :
    (run.state moment).InTurn project (callsOn project (run.calls moment)) := by
  induction moment with
  | zero =>
      have hall : ∀ {holds : MergeCall → Prop},
          ∀ call ∈ callsOn project (run.calls 0), holds call :=
        List.forall_mem_nil _
      exact ⟨hall, fun hmerges => absurd hmerges run.not_mergesAt_zero, fun _ => hall, hall, hall⟩
  | succ moment ih =>
      refine ih.go (run.turnGo moment project) ?_
      exact (List.filter_sublist.map _).nodup (run.recorded_calls (moment + 1)).nodup

end Run

end PlcTags.Service
