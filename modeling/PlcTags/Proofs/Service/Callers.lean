import PlcTags.Proofs.Service.Serial

/-!
# Who has called

Every call of the history belongs to a job of its own, which has got its turn (`Recorded`).
What a merge leaves with its job is what its call has returned (`Returns`).  Nothing that
was asked for is left out: the calls of a run are all merges that jobs have been in line
for, but for those that still are (`Run.mem_calls_iff`).
-/

namespace PlcTags.Service

open Live

variable {service next : Service} {move : Move} {number : Nat} {job : Job} {stage : Stage}
  {calls : List MergeCall} {project : Int} {change : MergeCall → MergeCall}

/-! ## Changes of a call -/

theorem map_onCall {β : Type} (read : MergeCall → β)
    (hread : ∀ call, read (change call) = read call) (number : Nat) (calls : List MergeCall) :
    (onCall number change calls).map read = calls.map read := by
  unfold onCall
  rw [List.map_map]
  refine List.map_congr_left ?_
  intro call _
  rw [Function.comp_apply]
  split
  · exact hread call
  · rfl

theorem onCall_of_ne (h : ∀ call ∈ calls, call.number ≠ number) :
    onCall number change calls = calls := by
  unfold onCall
  refine (List.map_congr_left ?_).trans (List.map_id calls)
  intro call hcall
  rw [if_neg (h call hcall)]
  rfl

theorem ne_of_nodup_concat {done : List MergeCall} {call : MergeCall}
    (hdistinct : ((done ++ [call]).map MergeCall.number).Nodup) :
    ∀ earlier ∈ done, earlier.number ≠ call.number := by
  rw [List.map_append, List.map_singleton] at hdistinct
  intro earlier hearlier
  exact (List.nodup_append.mp hdistinct).2.2 _ (List.mem_map_of_mem hearlier) _
    (List.mem_singleton_self _)

/-- The last call changes if it is the one. -/
theorem onCall_concat {done : List MergeCall} {call : MergeCall}
    (hdone : ∀ earlier ∈ done, earlier.number ≠ call.number) :
    onCall call.number change (done ++ [call]) = done ++ [change call] := by
  have hsame : onCall call.number change done = done := onCall_of_ne hdone
  unfold onCall at hsame ⊢
  rw [List.map_append, hsame, List.map_singleton, if_pos rfl]

theorem callsOn_onCall (hproject : ∀ call, (change call).project = call.project) (project : Int)
    (number : Nat) (calls : List MergeCall) :
    callsOn project (onCall number change calls) =
      onCall number change (callsOn project calls) := by
  unfold callsOn onCall
  rw [List.filter_map]
  congr 1
  refine List.filter_congr ?_
  intro call _
  rw [Function.comp_apply]
  split
  · rw [hproject]
  · rfl

/-! ## Who has called -/

/-- The calls of a history belong to different jobs, which have got their turns. -/
structure Recorded (service : Service) (calls : List MergeCall) : Prop where
  nodup : (calls.map MergeCall.number).Nodup
  known : ∀ call ∈ calls, ∃ job, service.jobs[call.number]? = some job ∧
    job.project = call.project ∧ 4 ≤ job.stage.rank

theorem Recorded.mono (h : service.Recorded calls) (hgo : JobsGo service move next) :
    next.Recorded calls := by
  refine ⟨h.nodup, ?_⟩
  intro call hcall
  obtain ⟨job, hjob, hproject, hrank⟩ := h.known call hcall
  obtain ⟨stage, hlater, hle, -⟩ := hgo.getElem? hjob
  exact ⟨job.withStage stage, hlater, hproject, Nat.le_trans hrank hle⟩

/-- A job that waits for its turn has not called. -/
theorem Recorded.number_ne (h : service.Recorded calls) (hjob : service.jobs[number]? = some job)
    (hrank : job.stage.rank < 4) : ∀ call ∈ calls, call.number ≠ number := by
  rintro call hcall rfl
  obtain ⟨found, hfound, -, hturn⟩ := h.known call hcall
  obtain rfl := Option.some.inj (hjob.symm.trans hfound)
  omega

/-- One more call, of a job that has got its turn just now. -/
theorem Recorded.concat {call : MergeCall} (h : service.Recorded calls)
    (hsteps : service.Steps call.number job stage next) (hgo : JobsGo service move next)
    (hrank : job.stage.rank < 4) (hlater : 4 ≤ stage.rank) (hproject : call.project = job.project) :
    next.Recorded (calls ++ [call]) where
  nodup := by
    have hnew : call.number ∉ calls.map MergeCall.number := by
      intro hmem
      obtain ⟨earlier, hearlier, hnumber⟩ := List.mem_map.mp hmem
      exact h.number_ne hsteps.before hrank earlier hearlier hnumber
    rw [List.map_append, List.map_singleton]
    exact List.nodup_append_comm.mp (List.nodup_cons.mpr ⟨hnew, h.nodup⟩)
  known := by
    intro found hfound
    rcases List.mem_append.mp hfound with hold | hcall
    · exact (h.mono hgo).known found hold
    · obtain rfl := List.mem_singleton.mp hcall
      exact ⟨_, hsteps.getElem?_self, hproject.symm, hlater⟩

theorem Recorded.onCall (h : service.Recorded calls) (hgo : JobsGo service move next)
    (hchange : ∀ call, (change call).number = call.number ∧ (change call).project = call.project) :
    next.Recorded (onCall number change calls) where
  nodup := by
    rw [map_onCall MergeCall.number fun call => (hchange call).1]
    exact h.nodup
  known := by
    intro found hfound
    obtain ⟨call, hcall, rfl⟩ := List.mem_map.mp hfound
    obtain ⟨job, hjob, hproject, hrank⟩ := (h.mono hgo).known call hcall
    refine ⟨job, ?_, ?_, hrank⟩
    · split
      · rw [(hchange call).1]
        exact hjob
      · exact hjob
    · split
      · rw [(hchange call).2]
        exact hproject
      · exact hproject

theorem Recorded.happens (h : service.Recorded calls) (hhappens : Happens service move next) :
    next.Recorded (service.recorded next calls move) := by
  have hgo := hhappens.jobsGo
  have hcalls := hhappens.callsGo calls
  generalize service.recorded next calls move = later at hcalls ⊢
  cases hcalls with
  | stay => exact h.mono hgo
  | load hmove hstage hturn hloads hsteps =>
      exact h.concat hsteps hgo (by rw [hstage]; exact Nat.lt_succ_self 3) (Nat.le_refl 4) rfl
  | fail hmove hstage hturn hfails hsteps hrank hresult =>
      exact h.concat hsteps hgo (by rw [hstage]; exact Nat.lt_succ_self 3) (by omega) rfl
  | take => exact h.onCall hgo fun _ => ⟨rfl, rfl⟩
  | finish => exact h.onCall hgo fun _ => ⟨rfl, rfl⟩

theorem Run.recorded_calls (run : Run) (moment : ℕ) :
    (run.state moment).Recorded (run.calls moment) := by
  induction moment with
  | zero => exact ⟨List.nodup_nil, nofun⟩
  | succ moment ih => exact ih.happens (run.happens moment)

/-- The pass that a call belongs to, if it does to any. -/
def passOf? (service : Service) (call : MergeCall) : Option Pass :=
  service.jobs[call.number]?.bind Job.pass?

/-- Whoever merges has called, and what a merge has left with its job is what the call has
returned. -/
structure Returns (service : Service) (calls : List MergeCall) : Prop where
  merging : ∀ {number : Nat} {job : Job}, service.jobs[number]? = some job →
    job.stage.rank = 4 → ∃ call ∈ calls, call.number = number
  kept : ∀ {number : Nat} {job : Job} {result : Except Failure MergeReport},
    service.jobs[number]? = some job → job.stage.result? = some result →
      ∃ call ∈ calls, call.number = number ∧ call.returned = some result

theorem mem_onCall_of_ne {call : MergeCall} (hcall : call ∈ calls) (hne : call.number ≠ number) :
    call ∈ onCall number change calls :=
  List.mem_map.mpr ⟨call, hcall, if_neg hne⟩

theorem mem_onCall_self {call : MergeCall} (hcall : call ∈ calls) :
    change call ∈ onCall call.number change calls :=
  List.mem_map.mpr ⟨call, hcall, if_pos rfl⟩

/-- A job makes a step; the calls of all others stay. -/
theorem Returns.steps {later : List MergeCall} (h : service.Returns calls)
    (hsteps : service.Steps number job stage next)
    (hothers : ∀ call ∈ calls, call.number ≠ number → call ∈ later)
    (hmerging : stage.rank = 4 → ∃ call ∈ later, call.number = number)
    (hkept : ∀ result, stage.result? = some result →
      ∃ call ∈ later, call.number = number ∧ call.returned = some result) :
    next.Returns later := by
  constructor
  · intro other found hfound hrank
    by_cases hother : other = number
    · subst hother
      obtain rfl := Option.some.inj (hsteps.getElem?_self.symm.trans hfound)
      exact hmerging hrank
    · rw [hsteps.getElem?_of_ne hother] at hfound
      obtain ⟨call, hcall, rfl⟩ := h.merging hfound hrank
      exact ⟨call, hothers call hcall hother, rfl⟩
  · intro other found result hfound hresult
    by_cases hother : other = number
    · subst hother
      obtain rfl := Option.some.inj (hsteps.getElem?_self.symm.trans hfound)
      exact hkept result hresult
    · rw [hsteps.getElem?_of_ne hother] at hfound
      obtain ⟨call, hcall, rfl, hreturned⟩ := h.kept hfound hresult
      exact ⟨call, hothers call hcall hother, rfl, hreturned⟩

theorem Returns.happens (h : service.Returns calls) (hhappens : Happens service move next) :
    next.Returns (service.recorded next calls move) := by
  have hcalls := hhappens.callsGo calls
  generalize service.recorded next calls move = later at hcalls ⊢
  cases hcalls with
  | stay hstore hmerging hwaiting hresults =>
      constructor
      · intro number job hjob hrank
        exact h.merging ((hmerging hrank).mp hjob) hrank
      · intro number later result hlater hresult
        obtain ⟨job, hjob, hbefore⟩ := hresults hlater hresult
        exact h.kept hjob hbefore
  | load hmove hstage hturn hloads hsteps =>
      apply h.steps hsteps
      · exact fun call hcall _ => List.mem_append_left _ hcall
      · exact fun _ => ⟨_, List.mem_concat_self, rfl⟩
      · exact nofun
  | @fail number job origin batch diagnostics failure stage hmove hstage hturn hfails hsteps hrank
      hresult =>
      apply h.steps hsteps
      · exact fun call hcall _ => List.mem_append_left _ hcall
      · exact fun _ => ⟨_, List.mem_concat_self, rfl⟩
      · intro result hleft
        refine ⟨_, List.mem_concat_self, rfl, ?_⟩
        rw [hresult result hleft]
  | take hmove hstage hsteps =>
      -- The call of the job that merges is there already.
      obtain ⟨call, hcall, rfl⟩ := h.merging hsteps.before (by rw [hstage]; rfl)
      apply h.steps hsteps
      · exact fun call hcall hne => mem_onCall_of_ne hcall hne
      · exact fun _ => ⟨_, mem_onCall_self hcall, rfl⟩
      · exact nofun
  | @finish number job merge diagnostics stage hmove hstage hsteps hrank hresult =>
      obtain ⟨call, hcall, rfl⟩ := h.merging hsteps.before (by rw [hstage]; rfl)
      apply h.steps hsteps
      · exact fun call hcall hne => mem_onCall_of_ne hcall hne
      · exact fun _ => ⟨_, mem_onCall_self hcall, rfl⟩
      · intro result hleft
        exact ⟨_, mem_onCall_self hcall, rfl, hresult.symm.trans hleft⟩

theorem Run.returns_calls (run : Run) (moment : ℕ) :
    (run.state moment).Returns (run.calls moment) := by
  induction moment with
  | zero =>
      have hnone : ∀ {number : Nat} {job : Job}, (run.state 0).jobs[number]? ≠ some job := by
        rw [jobs_zero]
        exact nofun
      exact ⟨fun hjob => absurd hjob hnone, fun hjob => absurd hjob hnone⟩
  | succ moment ih => exact ih.happens (run.happens moment)

/-- A merge that a job asks for. -/
structure MergeRequest where
  number : Nat
  project : Int
  origin : Origin
  batch : List Tag

/-- What a call asks for. -/
def request (call : MergeCall) : MergeRequest :=
  ⟨call.number, call.project, call.origin, call.batch⟩

/-- The job is in line for the merge that it asks for. -/
def Requests (service : Service) (request : MergeRequest) : Prop :=
  ∃ job diagnostics, service.jobs[request.number]? = some job ∧ job.project = request.project ∧
    job.stage = .queued request.origin request.batch diagnostics

variable {asked : MergeRequest}

theorem Steps.requests_iff (hsteps : service.Steps number job stage next)
    (hne : asked.number ≠ number) : next.Requests asked ↔ service.Requests asked := by
  unfold Requests
  rw [hsteps.getElem?_of_ne hne]

/-- A job that begins its merge is in line for it no longer, and nobody else leaves a line. -/
theorem Steps.leaves_iff {origin : Origin} {batch : List Tag} {diagnostics : List Diagnostic}
    (hsteps : service.Steps number job stage next)
    (hstage : job.stage = .queued origin batch diagnostics) (hrank : 4 ≤ stage.rank) :
    service.Requests asked ∧ ¬ next.Requests asked ↔
      asked = ⟨number, job.project, origin, batch⟩ := by
  constructor
  · rintro ⟨hasked, hgone⟩
    by_cases hnumber : asked.number = number
    · obtain ⟨found, problems, hfound, hproject, hqueued⟩ := hasked
      rw [hnumber] at hfound
      obtain rfl := Option.some.inj (hsteps.before.symm.trans hfound)
      obtain ⟨horigin, hbatch, -⟩ := Stage.queued.inj (hstage.symm.trans hqueued)
      rw [← hnumber, hproject, horigin, hbatch]
    · exact absurd ((hsteps.requests_iff hnumber).mpr hasked) hgone
  · rintro rfl
    refine ⟨⟨job, diagnostics, hsteps.before, rfl, hstage⟩, ?_⟩
    rintro ⟨found, problems, hfound, -, hqueued⟩
    obtain rfl := Option.some.inj (hsteps.getElem?_self.symm.trans hfound)
    obtain rfl : stage = _ := hqueued
    simp [Stage.rank] at hrank

/-- A job that is not in line leaves none. -/
theorem Steps.not_leaves (hsteps : service.Steps number job stage next)
    (hrank : job.stage.rank ≠ 3) : ¬ (service.Requests asked ∧ ¬ next.Requests asked) := by
  rintro ⟨hasked, hgone⟩
  by_cases hnumber : asked.number = number
  · obtain ⟨found, problems, hfound, -, hqueued⟩ := hasked
    rw [hnumber] at hfound
    obtain rfl := Option.some.inj (hsteps.before.symm.trans hfound)
    rw [hqueued] at hrank
    exact hrank rfl
  · exact hgone ((hsteps.requests_iff hnumber).mpr hasked)

/-- The calls that a moment adds are those that get their turns. -/
theorem mem_recorded_iff (hhappens : Happens service move next) :
    asked ∈ (service.recorded next calls move).map request ↔
      asked ∈ calls.map request ∨ service.Requests asked ∧ ¬ next.Requests asked := by
  have hgo := hhappens.jobsGo
  have hcalls := hhappens.callsGo calls
  generalize service.recorded next calls move = later at hcalls ⊢
  cases hcalls with
  | stay hstore hmerging hwaiting hresults =>
      refine (or_iff_left ?_).symm
      rintro ⟨⟨job, problems, hjob, hproject, hqueued⟩, hgone⟩
      obtain ⟨stage, hlater, -⟩ := hgo.getElem? hjob
      rw [hwaiting hjob hlater (by rw [hqueued]; rfl)] at hlater
      exact hgone ⟨job, problems, hlater, hproject, hqueued⟩
  | load hmove hstage hturn hloads hsteps =>
      rw [hsteps.leaves_iff hstage (Nat.le_refl 4), List.map_append, List.mem_append,
        List.map_singleton, List.mem_singleton]
      rfl
  | fail hmove hstage hturn hfails hsteps hrank hresult =>
      rw [hsteps.leaves_iff hstage (by omega), List.map_append, List.mem_append,
        List.map_singleton, List.mem_singleton]
      rfl
  | take hmove hstage hsteps =>
      rw [map_onCall, or_iff_left (hsteps.not_leaves (by simp [hstage, Stage.rank]))]
      exact fun _ => rfl
  | finish hmove hstage hsteps =>
      rw [map_onCall, or_iff_left (hsteps.not_leaves (by simp [hstage, Stage.rank]))]
      exact fun _ => rfl

/-- **The calls of a run are all merges that jobs have asked for**, but for those that are
still in line. -/
theorem Run.mem_calls_iff (run : Run) (moment : ℕ) :
    asked ∈ (run.calls moment).map request ↔
      (∃ earlier < moment, (run.state earlier).Requests asked) ∧
        ¬ (run.state moment).Requests asked := by
  have hwaits : ∀ moment, asked ∈ (run.calls moment).map request →
      ¬ (run.state moment).Requests asked := by
    rintro moment hasked ⟨job, problems, hjob, -, hqueued⟩
    obtain ⟨call, hcall, rfl⟩ := List.mem_map.mp hasked
    obtain ⟨found, hfound, -, hrank⟩ := (run.recorded_calls moment).known call hcall
    obtain rfl := Option.some.inj (hjob.symm.trans hfound)
    rw [hqueued] at hrank
    exact Nat.lt_irrefl 3 hrank
  induction moment with
  | zero =>
      refine iff_of_false List.not_mem_nil ?_
      rintro ⟨⟨earlier, hlt, -⟩, -⟩
      exact absurd hlt (Nat.not_lt_zero earlier)
  | succ moment ih =>
      constructor
      · intro hasked
        refine ⟨?_, hwaits _ hasked⟩
        rcases (mem_recorded_iff (run.happens moment)).mp hasked with hbefore | ⟨hrequests, -⟩
        · obtain ⟨⟨earlier, hlt, hrequests⟩, -⟩ := ih.mp hbefore
          exact ⟨earlier, Nat.lt_succ_of_lt hlt, hrequests⟩
        · exact ⟨moment, Nat.lt_succ_self moment, hrequests⟩
      · rintro ⟨⟨earlier, hlt, hrequests⟩, hgone⟩
        refine (mem_recorded_iff (run.happens moment)).mpr ?_
        by_cases hlast : (run.state moment).Requests asked
        · exact .inr ⟨hlast, hgone⟩
        · left
          refine ih.mpr ⟨⟨earlier, ?_, hrequests⟩, hlast⟩
          rcases Nat.lt_succ_iff_lt_or_eq.mp hlt with hlt | rfl
          · exact hlt
          · exact absurd hrequests hlast

/-- The call of a pass comes from a job of it that was in line. -/
theorem Run.queued_of_pass (run : Run) {moment : ℕ} {call : MergeCall} {pass : Pass}
    (hcall : call ∈ run.calls moment) (hpass : (run.state moment).passOf? call = some pass) :
    ∃ earlier < moment, ∃ job diagnostics, (run.state earlier).jobs[call.number]? = some job ∧
      job.pass? = some pass ∧ job.stage = .queued call.origin call.batch diagnostics := by
  obtain ⟨⟨earlier, hlt, job, diagnostics, hjob, -, hstage⟩, -⟩ :=
    (run.mem_calls_iff moment).mp (List.mem_map_of_mem hcall)
  obtain ⟨stage, hlater, -⟩ := run.getElem?_jobs (Nat.le_of_lt hlt) hjob
  have hnumber : (run.state moment).jobs[call.number]? = some (job.withStage stage) := hlater
  rw [passOf?, hnumber] at hpass
  exact ⟨earlier, hlt, job, diagnostics, hjob, hpass, hstage⟩

end PlcTags.Service
