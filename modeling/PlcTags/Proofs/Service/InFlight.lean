import PlcTags.Proofs.Service.Edits
import PlcTags.Proofs.Service.LastEdit

/-!
# Passes on their way

A pass whose delay is over can still be cancelled until it asks for its merge; from then on
it runs to its end.  So of the passes of one session at most one is on its way that can
still be cancelled, but passes of earlier edits may be on their way before it
(`Run.overlaps`): they wait for their merge, merge, announce, or wait for room for their
report.
-/

namespace PlcTags.Service

open Live

variable {service : Service} {job later : Job} {pass laterPass : Pass} {first second : Nat}

/-- A pass is on its way: its delay is over, and it has neither been cancelled nor ended.
Once a pass has asked for its merge it is not cancelled any more. -/
structure IsInFlight (service : Service) (number : Nat) (job : Job) (pass : Pass) : Prop where
  found : service.jobs[number]? = some job
  own : job.pass? = some pass
  due : ∀ due, job.stage = .delayed due → due ≤ service.now
  rank : job.stage.rank < 8
  live : job.stage.rank < 3 → service.isSuperseded pass = false

/-- Passes come in the order of their numbers. -/
theorem PassesInOrder.lt_of_sync_lt (h : service.PassesInOrder)
    (hjob : service.jobs[first]? = some job) (hlater : service.jobs[second]? = some later)
    (hpass : job.pass? = some pass) (hlaterPass : later.pass? = some laterPass)
    (hsync : pass.sync < laterPass.sync) : first < second := by
  rcases Nat.lt_trichotomy first second with hlt | rfl | hgt
  · exact hlt
  · obtain rfl := Option.some.inj (hjob.symm.trans hlater)
    obtain rfl := Option.some.inj (hpass.symm.trans hlaterPass)
    exact absurd hsync (Nat.lt_irrefl _)
  · have hother := (h.ordered hgt hlater hjob hlaterPass hpass).1
    omega

namespace IsInFlight

variable (hfirst : service.IsInFlight first job pass)
  (hsecond : service.IsInFlight second later laterPass)

include hfirst hsecond

/-- Of two passes of a session that are on their way the one of the earlier edit can not be
cancelled any more. -/
theorem rank_of_lt (hpasses : service.PassesInOrder) (hseated : service.Seated)
    (hsession : pass.session = laterPass.session) (hlt : first < second) :
    3 ≤ job.stage.rank ∧ service.isSuperseded pass = true := by
  have hlate := isSuperseded_of_lt hpasses hseated hlt hfirst.found hsecond.found hfirst.own
    hsecond.own hsession
  refine ⟨?_, hlate⟩
  by_contra hearly
  cases hlate.symm.trans (hfirst.live (by omega))

/-- Two passes of a session that can both still be cancelled are the same. -/
theorem eq_of_rank_lt (hpasses : service.PassesInOrder) (hseated : service.Seated)
    (hsession : pass.session = laterPass.session) (hrank : job.stage.rank < 3)
    (hrank' : later.stage.rank < 3) : first = second := by
  rcases Nat.lt_trichotomy first second with hlt | heq | hgt
  · have hasked := (hfirst.rank_of_lt hsecond hpasses hseated hsession hlt).1
    omega
  · exact heq
  · have hasked := (hsecond.rank_of_lt hfirst hpasses hseated hsession.symm hgt).1
    omega

end IsInFlight

namespace Run

variable {run : Run} {moment : ℕ}

/-- How far the passes of one session overlap. -/
structure Overlaps (run : Run) (moment : ℕ) : Prop where
  /-- Of the passes of a session at most one is on its way that can still be cancelled. -/
  unique : ∀ {first second : Nat} {job later : Job} {pass laterPass : Pass},
    (run.state moment).IsInFlight first job pass →
      (run.state moment).IsInFlight second later laterPass →
      pass.session = laterPass.session → job.stage.rank < 3 → later.stage.rank < 3 →
      first = second
  /-- While a pass is on its way, those of earlier edits that are too have asked for their
  merges; their edits have been cancelled, -/
  asked : ∀ {first second : Nat} {job later : Job} {pass laterPass : Pass},
    (run.state moment).IsInFlight first job pass →
      (run.state moment).IsInFlight second later laterPass →
      pass.session = laterPass.session → pass.sync < laterPass.sync →
      3 ≤ job.stage.rank ∧ (run.state moment).isSuperseded pass = true
  /-- which does not stop them. -/
  goesOn : ∀ {number : Nat} {job : Job} {pass : Pass} {after : ℕ},
    (run.state moment).IsInFlight number job pass → 3 ≤ job.stage.rank → moment ≤ after →
      ∃ stage, (run.state after).jobs[number]? = some (job.withStage stage) ∧
        job.stage.rank ≤ stage.rank ∧ stage ≠ .ended .superseded
  /-- Of the passes that have asked for merges into one project at most one merges. -/
  merging : ∀ {first second : Nat} {job later : Job} {pass laterPass : Pass},
    (run.state moment).IsInFlight first job pass →
      (run.state moment).IsInFlight second later laterPass → job.project = later.project →
      job.stage.rank = 4 → later.stage.rank = 4 → first = second

/-- **How far the passes of one session overlap**, at every moment of a run. -/
theorem overlaps (run : Run) (moment : ℕ) : run.Overlaps moment where
  unique hfirst hsecond hsession hrank hrank' :=
    hfirst.eq_of_rank_lt hsecond (run.passesInOrder moment) (run.seated moment) hsession hrank
      hrank'
  asked hfirst hsecond hsession hsync :=
    hfirst.rank_of_lt hsecond (run.passesInOrder moment) (run.seated moment) hsession
      ((run.passesInOrder moment).lt_of_sync_lt hfirst.found hsecond.found hfirst.own
        hsecond.own hsync)
  goesOn hflight hrank hle := by
    obtain ⟨stage, hafter, hgrows⟩ := run.getElem?_jobs hle hflight.found
    refine ⟨stage, hafter, hgrows, ?_⟩
    intro hended
    rcases isUnmerged_of_le hle hflight.found hflight.own hafter (.inr hended) with hearly | hover
    · omega
    · have hlast := hflight.rank
      rw [hover] at hlast
      simp [Stage.rank] at hlast
  merging hfirst hsecond hproject hrank hrank' :=
    ((run.inLine moment).eq_of_merging hfirst.found hrank hsecond.found hrank' hproject.symm).symm

/-- The report of a pass waits for room while the delay of the next one is over. -/
def crowdedRun : Run where
  first := openService
  isNew := isNew_openService
  moves moment := [
    Move.openSession 1, .authenticate 0 none, .step (.session 0), .handle 0 (.subscribe 7),
    .step (.session 0), .step (.session 0), .handle 0 (.syncEdit (pumpEdit "Bool")), .wait 400,
    .step (.job 0), .step (.job 0), .step (.job 0), .step (.job 0), .step (.job 0),
    .step (.job 0), .step (.job 0), .step (.job 0), .handle 0 (.syncEdit (pumpEdit "Int")),
    .wait 400, .step (.job 1)].getD moment (.wait 0)

/-- A pass is on its way if it has made its first step, is not over, and is not cancelled
before it asks for its merge. -/
theorem isInFlight_of_shape {service : Service} {number rank : Nat} (isLate : Bool)
    (hshape : service.jobs[number]?.map (fun job =>
      (job.pass?, job.stage.rank, service.isSuperseded pass)) = some (some pass, rank, isLate))
    (hdelay : 0 < rank) (hrank : rank < 8) (hlate : rank < 3 → isLate = false) :
    ∃ job, service.IsInFlight number job pass ∧ job.stage.rank = rank := by
  obtain ⟨job, hjob, hshape⟩ := Option.map_eq_some_iff.mp hshape
  simp only [Prod.mk.injEq] at hshape
  obtain ⟨hpass, rfl, rfl⟩ := hshape
  refine ⟨job, ⟨hjob, hpass, ?_, hrank, hlate⟩, rfl⟩
  intro due hdue
  rw [hdue] at hdelay
  exact absurd hdelay (Nat.lt_irrefl 0)

/-- The pass of an edit waits for its merge behind another one while the next edit of its
session is read. -/
theorem overlaps_held : ∃ job later,
    (heldRun.state 16).IsInFlight 1 job (heldPass 1 "Bool") ∧
      (heldRun.state 16).IsInFlight 2 later (heldPass 2 "Int") ∧ later.stage.rank = 1 ∧
      3 ≤ job.stage.rank ∧
      ∃ stage, (heldRun.state 28).jobs[1]? = some (job.withStage stage) ∧
        stage ≠ .ended .superseded := by
  have hoverlaps := heldRun.overlaps 16
  obtain ⟨job, hfirst, -⟩ : ∃ job, (heldRun.state 16).IsInFlight 1 job (heldPass 1 "Bool") ∧
      job.stage.rank = 3 :=
    isInFlight_of_shape true (by decide +kernel) (by decide) (by decide) (by decide)
  obtain ⟨later, hsecond, hrank⟩ :
      ∃ later, (heldRun.state 16).IsInFlight 2 later (heldPass 2 "Int") ∧ later.stage.rank = 1 :=
    isInFlight_of_shape false (by decide +kernel) (by decide) (by decide) (by decide)
  obtain ⟨hasked, -⟩ := hoverlaps.asked hfirst hsecond rfl (by decide)
  obtain ⟨stage, hafter, -, hgoes⟩ := hoverlaps.goesOn hfirst hasked (by decide : 16 ≤ 28)
  exact ⟨job, later, hfirst, hsecond, hrank, hasked, stage, hafter, hgoes⟩

/-- More than one pass of a session can be on its way. -/
theorem not_inFlight_unique : ¬ ∀ (run : Run) (moment first second : ℕ) (job later : Job)
    (pass laterPass : Pass), (run.state moment).IsInFlight first job pass →
      (run.state moment).IsInFlight second later laterPass →
      pass.session = laterPass.session → first = second := by
  intro hall
  obtain ⟨job, hfirst, -⟩ : ∃ job, (crowdedRun.state 19).IsInFlight 0 job (heldPass 1 "Bool") ∧
      job.stage.rank = 7 :=
    isInFlight_of_shape true (by decide +kernel) (by decide) (by decide) (by decide)
  obtain ⟨later, hsecond, -⟩ :
      ∃ later, (crowdedRun.state 19).IsInFlight 1 later (heldPass 2 "Int") ∧
        later.stage.rank = 1 :=
    isInFlight_of_shape false (by decide +kernel) (by decide) (by decide) (by decide)
  cases hall crowdedRun 19 0 1 job later _ _ hfirst hsecond rfl

end Run

end PlcTags.Service
