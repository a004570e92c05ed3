import Mathlib.Data.List.Nodup
import PlcTags.Proofs.Service.Run

/-!
# Lines for the locks

Whoever waits for a merge or an announcement stands in line for it, once, and nobody else
does; who is in the middle of one is the first of its line (`Locks.Serves`).  So at any
time one job at most merges into a project, and the jobs that wait for a project get
their turn in the order in which they asked for it (`Locks.Before`).

A step of a job is seen here as a `Passage`: how far the job was, how far it is after the
step, and what became of the two lines.
-/

namespace PlcTags

open Live

namespace Live.Locks

variable {locks : Locks} {project other : Int} {party first second : Party}

/-! ## The first in line -/

theorem mem_line_of_holder? (h : locks.holder? project = some party) :
    (project, party) ∈ locks.line := by
  unfold holder? at h
  obtain ⟨before, after, hline, -⟩ := List.lookup_eq_some_iff.mp h
  rw [hline]
  simp

/-- A line has a first. -/
theorem exists_holder? (h : (project, party) ∈ locks.line) :
    ∃ first, locks.holder? project = some first :=
  Option.isSome_iff_exists.mp (List.lookup_isSome_iff.mpr ⟨_, h, beq_self_eq_true _⟩)

theorem holder?_ask (h : locks.holder? project = some first) :
    (locks.ask other party).holder? project = some first := by
  unfold holder? ask at *
  rw [List.lookup_append, h, Option.some_or]

theorem holder?_release (h : locks.holder? project = some first)
    (hne : (other, party) ≠ (project, first)) :
    (locks.release other party).holder? project = some first := by
  unfold holder? release at *
  obtain ⟨before, after, hline, hbefore⟩ := List.lookup_eq_some_iff.mp h
  rw [hline, List.erase_append]
  split
  · apply List.lookup_eq_some_iff.mpr
    refine ⟨before.erase (other, party), after, rfl, ?_⟩
    intro entry hentry
    exact hbefore entry (List.mem_of_mem_erase hentry)
  · apply List.lookup_eq_some_iff.mpr
    refine ⟨before, after.erase (other, party), ?_, hbefore⟩
    rw [List.erase_cons_tail]
    simpa using hne.symm

/-! ## Lines and those who stand in them -/

/-- Those who want a lock stand in line for it, once, and those who hold it are the first
of their lines. -/
structure Serves (locks : Locks) (wants holds : Party → Option Int) : Prop where
  nodup : locks.line.Nodup
  mem_iff : ∀ {project party}, (project, party) ∈ locks.line ↔ wants party = some project
  first : ∀ {project party}, holds party = some project → locks.holder? project = some party

variable {wants holds wants' holds' : Party → Option Int}

theorem Serves.eq_of_holds (h : locks.Serves wants holds) (hfirst : holds first = some project)
    (hsecond : holds second = some project) : first = second :=
  Option.some.inj ((h.first hfirst).symm.trans (h.first hsecond))

/-- A party gets in line. -/
theorem Serves.ask (h : locks.Serves wants holds) (hfree : wants party = none)
    (hwants : wants' party = some project) (hholds : holds' party = none)
    (hothers : ∀ other, other ≠ party → wants' other = wants other ∧ holds' other = holds other) :
    (locks.ask project party).Serves wants' holds' where
  nodup := by
    -- Whoever wants nothing has no entry.
    have hnew : (project, party) ∉ locks.line := by
      intro hmem
      rw [h.mem_iff, hfree] at hmem
      cases hmem
    simp only [Locks.ask, List.nodup_append, h.nodup, List.nodup_singleton, true_and]
    intro entry hentry same hsame heq
    rw [List.mem_singleton] at hsame
    subst heq hsame
    exact hnew hentry
  mem_iff := by
    intro wanted other
    simp only [Locks.ask, List.mem_append, List.mem_singleton, Prod.mk.injEq, h.mem_iff]
    by_cases hother : other = party
    · subst hother
      rw [hfree, hwants]
      simp [eq_comm]
    · rw [(hothers other hother).1]
      simp [hother]
  first := by
    intro held other hheld
    have hother : other ≠ party := by
      rintro rfl
      rw [hholds] at hheld
      cases hheld
    rw [(hothers other hother).2] at hheld
    exact holder?_ask (h.first hheld)

/-- A party leaves its line. -/
theorem Serves.release (h : locks.Serves wants holds) (hwanted : wants party = some project)
    (hwants : wants' party = none) (hholds : holds' party = none)
    (hothers : ∀ other, other ≠ party → wants' other = wants other ∧ holds' other = holds other) :
    (locks.release project party).Serves wants' holds' where
  nodup := h.nodup.erase _
  mem_iff := by
    intro wanted other
    simp only [Locks.release, h.nodup.mem_erase_iff, h.mem_iff, ne_eq, Prod.mk.injEq]
    by_cases hother : other = party
    · subst hother
      rw [hwanted, hwants]
      simp [eq_comm]
    · rw [(hothers other hother).1]
      simp [hother]
  first := by
    intro held other hheld
    have hother : other ≠ party := by
      rintro rfl
      rw [hholds] at hheld
      cases hheld
    rw [(hothers other hother).2] at hheld
    refine holder?_release (h.first hheld) ?_
    simp [Ne.symm hother]

/-- A party whose turn it is begins. -/
theorem Serves.begin (h : locks.Serves wants holds) (hturn : locks.isHeldBy project party = true)
    (hwants : ∀ other, wants' other = wants other) (hholds : holds' party = some project)
    (hothers : ∀ other, other ≠ party → holds' other = holds other) :
    locks.Serves wants' holds' where
  nodup := h.nodup
  mem_iff := by
    intro wanted other
    rw [hwants other]
    exact h.mem_iff
  first := by
    intro held other hheld
    by_cases hother : other = party
    · subst hother
      obtain rfl := Option.some.inj (hholds.symm.trans hheld)
      exact beq_iff_eq.mp hturn
    · rw [hothers other hother] at hheld
      exact h.first hheld

theorem Serves.congr (h : locks.Serves wants holds) (hwants : ∀ party, wants' party = wants party)
    (hholds : ∀ party, holds' party = holds party) : locks.Serves wants' holds' := by
  obtain rfl : wants' = wants := funext hwants
  obtain rfl : holds' = holds := funext hholds
  exact h

/-- A party wants and holds the same as before. -/
theorem Serves.stay (h : locks.Serves wants holds) (hwants : wants' party = wants party)
    (hholds : holds' party = holds party)
    (hothers : ∀ other, other ≠ party → wants' other = wants other ∧ holds' other = holds other) :
    locks.Serves wants' holds' := by
  refine h.congr ?_ ?_ <;> intro other <;> by_cases hother : other = party
  · rw [hother, hwants]
  · exact (hothers other hother).1
  · rw [hother, hholds]
  · exact (hothers other hother).2

/-! ## The order of a line -/

/-- One party stands before another one in the line for a project. -/
def Before (locks : Locks) (project : Int) (first second : Party) : Prop :=
  [(project, first), (project, second)].Sublist locks.line

theorem before_ask (h : (project, first) ∈ locks.line) :
    (locks.ask project second).Before project first second :=
  (List.singleton_sublist.mpr h).append (List.Sublist.refl [(project, second)])

theorem Before.ask (h : locks.Before project first second) :
    (locks.ask other party).Before project first second :=
  h.trans (List.sublist_append_left _ _)

theorem Before.release (h : locks.Before project first second) (hfirst : party ≠ first)
    (hsecond : party ≠ second) : (locks.release other party).Before project first second := by
  have hkept : [(project, first), (project, second)].erase (other, party) =
      [(project, first), (project, second)] := by
    apply List.erase_of_not_mem
    simp [hfirst, hsecond]
  have herased := h.erase (other, party)
  rwa [hkept] at herased

/-- Only the first in line has its turn. -/
theorem Before.holder?_ne (h : locks.Before project first second) (hnodup : locks.line.Nodup) :
    locks.holder? project ≠ some second := by
  intro hholder
  unfold holder? at hholder
  obtain ⟨before, after, hline, hbefore⟩ := List.lookup_eq_some_iff.mp hholder
  unfold Before at h
  rw [hline] at h hnodup
  -- The second stands behind an entry for the project, which is not among those before it.
  have hfirst : (project, first) ∉ before := by
    intro hmem
    simpa using hbefore _ hmem
  have hsecond : (project, second) ∉ after :=
    (List.nodup_cons.mp (List.nodup_append.mp hnodup).2.1).1
  obtain ⟨left, right, hsplit, hleft, hright⟩ := List.sublist_append_iff.mp h
  cases left with
  | nil =>
      obtain rfl : [(project, first), (project, second)] = right := by simpa using hsplit
      exact hsecond (List.singleton_sublist.mp hright.tail)
  | cons entry left =>
      obtain ⟨rfl, -⟩ := List.cons.inj hsplit
      exact hfirst (hleft.subset List.mem_cons_self)

end Live.Locks

/-! ## Jobs in line -/

namespace Live

/-- The project that a job wants to merge into, or merges into. -/
def Job.mergeWanted (job : Job) : Option Int :=
  if job.stage.rank = 3 ∨ job.stage.rank = 4 then some job.project else none

def Job.mergeHeld (job : Job) : Option Int :=
  if job.stage.rank = 4 then some job.project else none

/-- The project that a job wants to announce, or announces. -/
def Job.announcementWanted (job : Job) : Option Int :=
  if job.stage.rank = 5 ∨ job.stage.rank = 6 then some job.project else none

def Job.announcementHeld (job : Job) : Option Int :=
  if job.stage.rank = 6 then some job.project else none

/-- The project that a session wants to join, or joins. -/
def Standing.announcementWanted (standing : Standing) : Option Int :=
  match standing.call with
  | some (.joining project) | some (.registering project _) | some (.greeting project) =>
    some project
  | some (.checking _) | none => none

def Standing.announcementHeld (standing : Standing) : Option Int :=
  match standing.call with
  | some (.registering project _) | some (.greeting project) => some project
  | some (.joining _) | some (.checking _) | none => none

namespace Standing

variable {standing : Standing} {project : Int}

/-- A session stands in a line from the moment it asks for a project until it is greeted. -/
theorem announcementWanted_iff : standing.announcementWanted = some project ↔
    standing.call = some (.joining project) ∨
      (∃ tags, standing.call = some (.registering project tags)) ∨
      standing.call = some (.greeting project) := by
  rw [announcementWanted]
  cases standing.call with
  | none => simp
  | some call => cases call <;> simp

theorem announcementWanted_of_idle (h : standing.call = none) :
    standing.announcementWanted = none := by
  rw [announcementWanted, h]

theorem announcementHeld_of_idle (h : standing.call = none) :
    standing.announcementHeld = none := by
  rw [announcementHeld, h]

end Standing

end Live

namespace Service

variable {service middle next : Service} {number : Nat} {job : Job}

def mergeWanted (service : Service) : Party → Option Int
  | .session _ => none
  | .job number => service.jobs[number]?.bind Job.mergeWanted

def mergeHeld (service : Service) : Party → Option Int
  | .session _ => none
  | .job number => service.jobs[number]?.bind Job.mergeHeld

def announcementWanted (service : Service) : Party → Option Int
  | .session number => service.standings[number]?.bind Standing.announcementWanted
  | .job number => service.jobs[number]?.bind Job.announcementWanted

def announcementHeld (service : Service) : Party → Option Int
  | .session number => service.standings[number]?.bind Standing.announcementHeld
  | .job number => service.jobs[number]?.bind Job.announcementHeld

/-! ## How far a step takes a job -/

/-- What a step does: how far the job was and is, and what became of the lines. -/
inductive Passage (service : Service) (number : Nat) (job : Job) :
    Nat → Nat → Locks → Locks → Prop where
  /-- The job has not asked for its merge, and does not. -/
  | prepares {before after : Nat} (hbefore : before < 3)
      (hafter : before < after ∧ after < 3 ∨ after = 8) :
      Passage service number job before after service.merges service.announcements
  | asks : Passage service number job 2 3 (service.merges.ask job.project (.job number))
      service.announcements
  | loads (hturn : service.merges.isHeldBy job.project (.job number) = true) :
      Passage service number job 3 4 service.merges service.announcements
  /-- The project cannot be read. -/
  | fails {after : Nat} (hafter : 7 ≤ after)
      (hturn : service.merges.isHeldBy job.project (.job number) = true) :
      Passage service number job 3 after (service.merges.release job.project (.job number))
        service.announcements
  | merges : Passage service number job 4 4 service.merges service.announcements
  | announces : Passage service number job 4 5
      (service.merges.release job.project (.job number))
      (service.announcements.ask job.project (.job number))
  | ends : Passage service number job 4 8
      (service.merges.release job.project (.job number)) service.announcements
  | lists (hturn : service.announcements.isHeldBy job.project (.job number) = true) :
      Passage service number job 5 6 service.merges service.announcements
  | completes {before after : Nat} (hbefore : before = 5 ∨ before = 6) (hafter : 7 ≤ after) :
      Passage service number job before after service.merges
        (service.announcements.release job.project (.job number))
  | reports : Passage service number job 7 8 service.merges service.announcements

/-- The job of this number has made a step. -/
def Passes (service : Service) (number : Nat) (job : Job) (next : Service) : Prop :=
  ∃ stage : Stage, next.jobs = (service.setStage number stage).jobs ∧
    Passage service number job job.stage.rank stage.rank next.merges next.announcements

/-- A step that leads a job to this stage leaves the lines like this. -/
def Leads (service next : Service) (number : Nat) (stage : Stage) (merges announcements : Locks) :
    Prop :=
  next.jobs = (service.setStage number stage).jobs ∧ next.merges = merges ∧
    next.announcements = announcements

theorem passes_of_leads {stage : Stage} {merges announcements : Locks}
    (hpassage : Passage service number job job.stage.rank stage.rank merges announcements)
    (h : service.Leads next number stage merges announcements) :
    service.Passes number job next := by
  obtain ⟨hjobs, rfl, rfl⟩ := h
  exact ⟨stage, hjobs, hpassage⟩

theorem leads_tell (service : Service) (number : Nat) (pass : Pass) (message : ServerMessage) :
    ∃ stage, 7 ≤ stage.rank ∧ service.Leads (service.tell number pass message) number stage
      service.merges service.announcements := by
  unfold tell
  refine ⟨_, ?_, rfl, rfl, rfl⟩
  split <;> simp [Stage.rank]

theorem leads_failMerge (service : Service) (number : Nat) (job : Job) (failure : Failure) :
    ∃ stage, 7 ≤ stage.rank ∧ service.Leads (service.failMerge number job failure) number stage
      service.merges service.announcements := by
  unfold failMerge
  split
  · exact service.leads_tell number _ _
  all_goals exact ⟨.ended _, Nat.le_succ 7, rfl, rfl, rfl⟩

theorem leads_endAnnouncement (service : Service) (number : Nat) (job : Job)
    (report : Option MergeReport) (diagnostics : List Diagnostic) (result : Except Failure Nat) :
    ∃ stage, 7 ≤ stage.rank ∧
      service.Leads (service.endAnnouncement number job report diagnostics result) number stage
        service.merges (service.announcements.release job.project (.job number)) := by
  unfold endAnnouncement
  dsimp only
  split
  · obtain ⟨stage, hrank, hjobs, hmerges, hannouncements⟩ := leads_tell _ number _ _
    exact ⟨stage, hrank, hjobs, hmerges, hannouncements⟩
  all_goals exact ⟨.ended _, Nat.le_succ 7, rfl, rfl, rfl⟩

theorem deliver_frame (service : Service) (project : Int) (message : ServerMessage) :
    (service.deliver project message).jobs = service.jobs ∧
      (service.deliver project message).merges = service.merges ∧
      (service.deliver project message).announcements = service.announcements := by
  obtain ⟨sessions, hdelivered⟩ := service.exists_deliver_eq project message
  rw [hdelivered]
  exact ⟨rfl, rfl, rfl⟩

theorem passes_endAnnouncement {report : Option MergeReport} {diagnostics : List Diagnostic}
    (hrank : job.stage.rank = 5 ∨ job.stage.rank = 6) (hjobs : middle.jobs = service.jobs)
    (hmerges : middle.merges = service.merges)
    (hannouncements : middle.announcements = service.announcements)
    (result : Except Failure Nat) :
    service.Passes number job (middle.endAnnouncement number job report diagnostics result) := by
  obtain ⟨stage, hafter, hled, hmerges', hannouncements'⟩ :=
    middle.leads_endAnnouncement number job report diagnostics result
  apply passes_of_leads (.completes hrank hafter)
  refine ⟨?_, hmerges'.trans hmerges, ?_⟩
  · rw [hled, setStage, setStage, hjobs]
  · rw [hannouncements', hannouncements]

/-- The end of a merge leads to the announcement, or to the end of the job. -/
theorem passes_endMerge {merge : Merge} {diagnostics : List Diagnostic}
    (hstage : job.stage = .merging merge [] diagnostics) :
    service.Passes number job (service.endMerge number job merge.report diagnostics) := by
  have hrank : job.stage.rank = 4 := by rw [hstage]; rfl
  unfold endMerge
  dsimp only
  split
  · exact ⟨.announcing (some merge.report) diagnostics, rfl, by rw [hrank]; exact .announces⟩
  · exact ⟨.announcing (some merge.report) diagnostics, rfl, by rw [hrank]; exact .announces⟩
  · exact ⟨.ended (.merged (.ok merge.report)), rfl, by rw [hrank]; exact .ends⟩
  · exact ⟨.ended (.merged (.ok merge.report)), rfl, by rw [hrank]; exact .ends⟩

theorem passes_of_progress (h : Progress service number job next) :
    service.Passes number job next := by
  cases h with
  | superseded hpass hstage hlate =>
      exact ⟨.ended .superseded, rfl, .prepares hstage (.inr rfl)⟩
  | due hpass hstage hlive hdue =>
      refine ⟨.extracting, rfl, ?_⟩
      rw [hstage]
      exact .prepares (Nat.zero_lt_succ 2) (.inl ⟨Nat.zero_lt_one, Nat.one_lt_succ_succ 1⟩)
  | extracted hpass hstage hlive =>
      refine ⟨.validating _ _, rfl, ?_⟩
      rw [hstage]
      exact .prepares (Nat.one_lt_succ_succ 1) (.inl ⟨Nat.one_lt_two, Nat.lt_succ_self 2⟩)
  | validated hpass hstage hlive =>
      refine ⟨.queued _ _ _, rfl, ?_⟩
      rw [hstage]
      exact .asks
  | loaded hstage hturn hloads =>
      refine ⟨.merging _ _ _, rfl, ?_⟩
      rw [hstage]
      exact .loads hturn
  | @unloaded origin batch diagnostics failure hstage hturn hfails =>
      -- The turn is given back whether the purpose of the job has more to say or not.
      obtain ⟨stage, hafter, hled⟩ := leads_failMerge
        { service with merges := service.merges.release job.project (.job number) }
        number job failure
      refine ⟨stage, hled.1, ?_⟩
      rw [hstage, hled.2.1, hled.2.2]
      exact .fails hafter hturn
  | merged hstage =>
      refine ⟨.merging _ _ _, rfl, ?_⟩
      rw [hstage]
      exact .merges
  | finished hstage => exact passes_endMerge hstage
  | listed hstage hturn hloads =>
      refine ⟨.delivering _ _ _, rfl, ?_⟩
      rw [hstage]
      exact .lists hturn
  | unlisted hstage hturn =>
      exact passes_endAnnouncement (.inl (by rw [hstage]; rfl)) rfl rfl rfl _
  | @delivered report diagnostics tags hstage =>
      obtain ⟨hjobs, hmerges, hannouncements⟩ :=
        service.deliver_frame job.project (.tagsUpdated job.project tags)
      exact passes_endAnnouncement (.inr (by rw [hstage]; rfl)) hjobs hmerges hannouncements _
  | admitted hpass hstage hsession houtbox =>
      refine ⟨.ended .told, rfl, ?_⟩
      rw [hstage]
      exact .reports
  | unheard hpass hstage =>
      refine ⟨.ended .told, rfl, ?_⟩
      rw [hstage]
      exact .reports

/-- The line for merges serves the jobs after a step as it did before. -/
theorem Passage.merges_serve {before after : Nat} {merges announcements : Locks}
    {wants holds wants' holds' : Party → Option Int}
    (h : Passage service number job before after merges announcements)
    (hserves : service.merges.Serves wants holds)
    (hwants : wants (.job number) = if before = 3 ∨ before = 4 then some job.project else none)
    (hholds : holds (.job number) = if before = 4 then some job.project else none)
    (hwants' : wants' (.job number) = if after = 3 ∨ after = 4 then some job.project else none)
    (hholds' : holds' (.job number) = if after = 4 then some job.project else none)
    (hothers : ∀ party, party ≠ .job number → wants' party = wants party ∧
      holds' party = holds party) : merges.Serves wants' holds' := by
  cases h with
  | prepares hbefore hafter =>
      apply hserves.stay _ _ hothers
      · rw [hwants, hwants', if_neg (by omega), if_neg (by omega)]
      · rw [hholds, hholds', if_neg (by omega), if_neg (by omega)]
  | asks => exact hserves.ask hwants hwants' hholds' hothers
  | loads hturn =>
      refine hserves.begin hturn ?_ hholds' fun party hparty => (hothers party hparty).2
      intro party
      by_cases hparty : party = .job number
      · rw [hparty, hwants, hwants']
        rfl
      · exact (hothers party hparty).1
  | fails hafter hturn =>
      rw [if_neg (by omega)] at hwants' hholds'
      exact hserves.release hwants hwants' hholds' hothers
  | merges => exact hserves.stay (hwants'.trans hwants.symm) (hholds'.trans hholds.symm) hothers
  | announces => exact hserves.release hwants hwants' hholds' hothers
  | ends => exact hserves.release hwants hwants' hholds' hothers
  | completes hbefore hafter =>
      apply hserves.stay _ _ hothers
      · rw [hwants, hwants', if_neg (by omega), if_neg (by omega)]
      · rw [hholds, hholds', if_neg (by omega), if_neg (by omega)]
  | _ => exact hserves.stay (hwants'.trans hwants.symm) (hholds'.trans hholds.symm) hothers

/-- So does the line for announcements. -/
theorem Passage.announcements_serve {before after : Nat} {merges announcements : Locks}
    {wants holds wants' holds' : Party → Option Int}
    (h : Passage service number job before after merges announcements)
    (hserves : service.announcements.Serves wants holds)
    (hwants : wants (.job number) = if before = 5 ∨ before = 6 then some job.project else none)
    (hholds : holds (.job number) = if before = 6 then some job.project else none)
    (hwants' : wants' (.job number) = if after = 5 ∨ after = 6 then some job.project else none)
    (hholds' : holds' (.job number) = if after = 6 then some job.project else none)
    (hothers : ∀ party, party ≠ .job number → wants' party = wants party ∧
      holds' party = holds party) : announcements.Serves wants' holds' := by
  cases h with
  | prepares hbefore hafter =>
      apply hserves.stay _ _ hothers
      · rw [hwants, hwants', if_neg (by omega), if_neg (by omega)]
      · rw [hholds, hholds', if_neg (by omega), if_neg (by omega)]
  | fails hafter hturn =>
      apply hserves.stay _ _ hothers
      · rw [hwants, hwants', if_neg (by omega), if_neg (by omega)]
      · rw [hholds, hholds', if_neg (by omega), if_neg (by omega)]
  | announces => exact hserves.ask hwants hwants' hholds' hothers
  | lists hturn =>
      refine hserves.begin hturn ?_ hholds' fun party hparty => (hothers party hparty).2
      intro party
      by_cases hparty : party = .job number
      · rw [hparty, hwants, hwants']
        rfl
      · exact (hothers party hparty).1
  | completes hbefore hafter =>
      rw [if_pos hbefore] at hwants
      rw [if_neg (by omega)] at hwants' hholds'
      exact hserves.release hwants hwants' hholds' hothers
  | _ => exact hserves.stay (hwants'.trans hwants.symm) (hholds'.trans hholds.symm) hothers

/-- Jobs only go forward. -/
theorem Passage.rank_le {before after : Nat} {merges announcements : Locks}
    (h : Passage service number job before after merges announcements) : before ≤ after := by
  cases h <;> omega

/-- A job that has ended makes no step. -/
theorem Passage.before_lt {before after : Nat} {merges announcements : Locks}
    (h : Passage service number job before after merges announcements) : before < 8 := by
  cases h <;> omega

theorem jobs_of_passes (h : service.Passes number job next)
    (hjob : service.jobs[number]? = some job) :
    ∃ stage : Stage, next.jobs = service.jobs.set number (job.withStage stage) ∧
      Passage service number job job.stage.rank stage.rank next.merges next.announcements := by
  obtain ⟨stage, hjobs, hpassage⟩ := h
  refine ⟨stage, ?_, hpassage⟩
  rw [hjobs, setStage, List.modify_eq_set_getElem?, hjob]
  rfl

/-! ## The lines of a run -/

/-- Everybody stands in the lines as it should be. -/
structure InLine (service : Service) : Prop where
  merges : service.merges.Serves service.mergeWanted service.mergeHeld
  announcements : service.announcements.Serves service.announcementWanted
    service.announcementHeld

theorem InLine.congr (h : service.InLine) (hjobs : next.jobs = service.jobs)
    (hstandings : next.standings = service.standings) (hmerges : next.merges = service.merges)
    (hannouncements : next.announcements = service.announcements) : next.InLine where
  merges := by
    rw [hmerges]
    refine h.merges.congr ?_ ?_ <;> intro party <;> cases party <;>
      simp only [mergeWanted, mergeHeld, hjobs]
  announcements := by
    rw [hannouncements]
    refine h.announcements.congr ?_ ?_ <;> intro party <;> cases party <;>
      simp only [announcementWanted, announcementHeld, hjobs, hstandings]

/-- The wishes of a service in which one job is at another stage. -/
structure JobMoved (service : Service) (number : Nat) (later : Job) (next : Service) : Prop where
  mergeWanted : next.mergeWanted (.job number) = later.mergeWanted
  mergeHeld : next.mergeHeld (.job number) = later.mergeHeld
  announcementWanted : next.announcementWanted (.job number) = later.announcementWanted
  announcementHeld : next.announcementHeld (.job number) = later.announcementHeld
  merges : ∀ party, party ≠ .job number → next.mergeWanted party = service.mergeWanted party ∧
    next.mergeHeld party = service.mergeHeld party
  announcements : ∀ party, party ≠ .job number →
    next.announcementWanted party = service.announcementWanted party ∧
      next.announcementHeld party = service.announcementHeld party

theorem jobMoved_of_getElem? {later : Job} (hlater : next.jobs[number]? = some later)
    (hothers : ∀ other, other ≠ number → next.jobs[other]? = service.jobs[other]?)
    (hstandings : next.standings = service.standings) :
    JobMoved service number later next where
  mergeWanted := by simp only [Service.mergeWanted, hlater, Option.bind_some]
  mergeHeld := by simp only [Service.mergeHeld, hlater, Option.bind_some]
  announcementWanted := by simp only [Service.announcementWanted, hlater, Option.bind_some]
  announcementHeld := by simp only [Service.announcementHeld, hlater, Option.bind_some]
  merges := by
    intro party hparty
    cases party with
    | session other => exact ⟨rfl, rfl⟩
    | job other =>
        have hother : other ≠ number := fun heq => hparty (heq ▸ rfl)
        simp only [Service.mergeWanted, Service.mergeHeld, hothers other hother, and_self]
  announcements := by
    intro party hparty
    cases party with
    | session other =>
        simp only [Service.announcementWanted, Service.announcementHeld, hstandings, and_self]
    | job other =>
        have hother : other ≠ number := fun heq => hparty (heq ▸ rfl)
        simp only [Service.announcementWanted, Service.announcementHeld, hothers other hother,
          and_self]

theorem jobMoved_of_set {later : Job} (hjob : service.jobs[number]? = some job)
    (hjobs : next.jobs = service.jobs.set number later)
    (hstandings : next.standings = service.standings) : JobMoved service number later next := by
  obtain ⟨hlength, -⟩ := List.getElem?_eq_some_iff.mp hjob
  refine jobMoved_of_getElem? ?_ ?_ hstandings
  · rw [hjobs, List.getElem?_set_self hlength]
  · intro other hother
    rw [hjobs, List.getElem?_set_ne (Ne.symm hother)]

theorem jobMoved_of_append (hjobs : next.jobs = service.jobs ++ [job])
    (hstandings : next.standings = service.standings) :
    JobMoved service service.jobs.length job next := by
  refine jobMoved_of_getElem? ?_ ?_ hstandings
  · rw [hjobs, List.getElem?_concat_length]
  · intro other hother
    rw [hjobs]
    rcases Nat.lt_or_gt_of_ne hother with hlt | hgt
    · rw [List.getElem?_append_left hlt]
    · rw [List.getElem?_eq_none (by simp; omega), List.getElem?_eq_none (Nat.le_of_lt hgt)]

theorem wanted_of_getElem? (hjob : service.jobs[number]? = some job) :
    service.mergeWanted (.job number) = job.mergeWanted ∧
      service.mergeHeld (.job number) = job.mergeHeld ∧
      service.announcementWanted (.job number) = job.announcementWanted ∧
      service.announcementHeld (.job number) = job.announcementHeld := by
  simp only [mergeWanted, mergeHeld, announcementWanted, announcementHeld, hjob, Option.bind_some,
    and_self]

theorem InLine.passes (h : service.InLine) (hjob : service.jobs[number]? = some job)
    (hpasses : service.Passes number job next)
    (hstandings : next.standings = service.standings) : next.InLine := by
  obtain ⟨stage, hjobs, hpassage⟩ := jobs_of_passes hpasses hjob
  have hmoved := jobMoved_of_set hjob hjobs hstandings
  obtain ⟨hwanted, hheld, hwanted', hheld'⟩ := wanted_of_getElem? hjob
  exact ⟨hpassage.merges_serve h.merges hwanted hheld hmoved.mergeWanted hmoved.mergeHeld
      hmoved.merges,
    hpassage.announcements_serve h.announcements hwanted' hheld' hmoved.announcementWanted
      hmoved.announcementHeld hmoved.announcements⟩

theorem wanted_of_length (service : Service) :
    service.mergeWanted (.job service.jobs.length) = none ∧
      service.mergeHeld (.job service.jobs.length) = none ∧
      service.announcementWanted (.job service.jobs.length) = none ∧
      service.announcementHeld (.job service.jobs.length) = none := by
  simp only [mergeWanted, mergeHeld, announcementWanted, announcementHeld,
    List.getElem?_eq_none (Nat.le_refl _), Option.bind_none, and_self]

/-- A job is added that waits for nothing, for its merge or for its announcement. -/
theorem InLine.addJob (h : service.InLine) (hjobs : next.jobs = service.jobs ++ [job])
    (hstandings : next.standings = service.standings)
    (hlines : job.stage.rank = 0 ∧ next.merges = service.merges ∧
        next.announcements = service.announcements ∨
      job.stage.rank = 3 ∧
        next.merges = service.merges.ask job.project (.job service.jobs.length) ∧
        next.announcements = service.announcements ∨
      job.stage.rank = 5 ∧ next.merges = service.merges ∧
        next.announcements =
          service.announcements.ask job.project (.job service.jobs.length)) :
    next.InLine := by
  have hmoved := jobMoved_of_append hjobs hstandings
  obtain ⟨hwanted, hheld, hwanted', hheld'⟩ := service.wanted_of_length
  obtain ⟨hrank, hmerges, hannouncements⟩ | ⟨hrank, hmerges, hannouncements⟩ |
    ⟨hrank, hmerges, hannouncements⟩ := hlines
  -- The rank of the new job says in which of the two lines it stands.
  all_goals
    have hmergeWanted := hmoved.mergeWanted
    have hmergeHeld := hmoved.mergeHeld
    have hannouncementWanted := hmoved.announcementWanted
    have hannouncementHeld := hmoved.announcementHeld
    simp only [Job.mergeWanted, Job.mergeHeld, Job.announcementWanted, Job.announcementHeld,
      hrank] at hmergeWanted hmergeHeld hannouncementWanted hannouncementHeld
    refine ⟨?_, ?_⟩
    all_goals first | rw [hmerges] | rw [hannouncements]
  · exact h.merges.stay (hmergeWanted.trans hwanted.symm) (hmergeHeld.trans hheld.symm)
      hmoved.merges
  · exact h.announcements.stay (hannouncementWanted.trans hwanted'.symm)
      (hannouncementHeld.trans hheld'.symm) hmoved.announcements
  · exact h.merges.ask hwanted hmergeWanted hmergeHeld hmoved.merges
  · exact h.announcements.stay (hannouncementWanted.trans hwanted'.symm)
      (hannouncementHeld.trans hheld'.symm) hmoved.announcements
  · exact h.merges.stay (hmergeWanted.trans hwanted.symm) (hmergeHeld.trans hheld.symm)
      hmoved.merges
  · exact h.announcements.ask hwanted' hannouncementWanted hannouncementHeld
      hmoved.announcements

/-- The line for announcements serves the sessions after a call, or a step of one, as it
did before. -/
theorem Conduct.announcements_serve {isEnd : Bool} {standing later : Standing}
    {registry : Registry Nat} {announcements : Locks}
    {wants holds wants' holds' : Party → Option Int}
    (h : Conduct service number standing isEnd later registry announcements)
    (hserves : service.announcements.Serves wants holds)
    (hwants : wants (.session number) = standing.announcementWanted)
    (hholds : holds (.session number) = standing.announcementHeld)
    (hwants' : wants' (.session number) = later.announcementWanted)
    (hholds' : holds' (.session number) = later.announcementHeld)
    (hothers : ∀ party, party ≠ .session number → wants' party = wants party ∧
      holds' party = holds party) : announcements.Serves wants' holds' := by
  have hsame : later.announcementWanted = standing.announcementWanted →
      later.announcementHeld = standing.announcementHeld →
        service.announcements.Serves wants' holds' := by
    intro hwanted hheld
    apply hserves.stay _ _ hothers
    · rw [hwants, hwants', hwanted]
    · rw [hholds, hholds', hheld]
  -- A session that is idle is in no line; only a join gets in line, and its end out of it.
  cases h with
  | answers => exact hsame rfl rfl
  | checks credential hidle hstate =>
      obtain ⟨-, hcall⟩ := Standing.isIdle_iff.mp hidle
      exact hsame (Standing.announcementWanted_of_idle hcall).symm
        (Standing.announcementHeld_of_idle hcall).symm
  | accepted hcall =>
      apply hsame <;> simp only [Standing.announcementWanted, Standing.announcementHeld, hcall]
  | refused hcall =>
      apply hsame <;> simp only [Standing.announcementWanted, Standing.announcementHeld, hcall]
  | leaves hidle hstate => exact hsame rfl rfl
  | asks project hidle hstate =>
      have hwanted := Standing.announcementWanted_of_idle (Standing.isIdle_iff.mp hidle).2
      exact hserves.ask (hwants.trans hwanted) hwants' hholds' hothers
  | moves project hidle hstate =>
      have hwanted := Standing.announcementWanted_of_idle (Standing.isIdle_iff.mp hidle).2
      exact hserves.ask (hwants.trans hwanted) hwants' hholds' hothers
  | loads tags hcall hturn =>
      refine hserves.begin hturn ?_ hholds' fun party hparty => (hothers party hparty).2
      intro party
      by_cases hparty : party = .session number
      · rw [hparty, hwants, hwants']
        simp only [Standing.announcementWanted, hcall]
      · exact (hothers party hparty).1
  | fails hcall hturn =>
      have hwanted := Standing.announcementWanted_iff.mpr (.inl hcall)
      exact hserves.release (hwants.trans hwanted) hwants' hholds' hothers
  | registers hcall =>
      apply hsame <;> simp only [Standing.announcementWanted, Standing.announcementHeld, hcall]
  | joins hcall =>
      have hwanted := Standing.announcementWanted_iff.mpr (.inr (.inl ⟨_, hcall⟩))
      exact hserves.release (hwants.trans hwanted) hwants' hholds' hothers
  | greets hcall =>
      have hwanted := Standing.announcementWanted_iff.mpr (.inr (.inr hcall))
      exact hserves.release (hwants.trans hwanted) hwants' hholds' hothers
  | edits hidle hstate => exact hsame rfl rfl
  | closes isDropped hidle hopen hstate => exact hsame rfl rfl
  | closesIn isDropped hidle hopen hstate => exact hsame rfl rfl
  | goes hidle hclosed => exact hsame rfl rfl

theorem InLine.conducts {isEnd : Bool} (h : service.InLine)
    (hconducts : service.Conducts number isEnd next)
    (hjobs : next.jobs = service.jobs) (hmerges : next.merges = service.merges) :
    next.InLine := by
  obtain ⟨standing, later, hstanding, hconduct, hstandings⟩ := hconducts
  obtain ⟨hlength, -⟩ := List.getElem?_eq_some_iff.mp hstanding
  have hlater : next.standings[number]? = some later := by
    rw [hstandings, List.getElem?_set_self hlength]
  refine ⟨?_, hconduct.announcements_serve h.announcements ?_ ?_ ?_ ?_ ?_⟩
  · rw [hmerges]
    refine h.merges.congr ?_ ?_ <;> intro party <;> cases party <;>
      simp only [mergeWanted, mergeHeld, hjobs]
  · simp only [announcementWanted, hstanding, Option.bind_some]
  · simp only [announcementHeld, hstanding, Option.bind_some]
  · simp only [announcementWanted, hlater, Option.bind_some]
  · simp only [announcementHeld, hlater, Option.bind_some]
  · intro party hparty
    cases party with
    | session other =>
        have hother : number ≠ other := fun heq => hparty (heq ▸ rfl)
        simp only [announcementWanted, announcementHeld, hstandings,
          List.getElem?_set_ne hother, and_self]
    | job other => simp only [announcementWanted, announcementHeld, hjobs, and_self]

/-- A session that has just been opened stands in no line. -/
theorem InLine.opened (h : service.InLine) (hjobs : next.jobs = service.jobs)
    (hstandings : next.standings = service.standings ++ [.fresh])
    (hmerges : next.merges = service.merges)
    (hannouncements : next.announcements = service.announcements) : next.InLine where
  merges := by
    rw [hmerges]
    refine h.merges.congr ?_ ?_ <;> intro party <;> cases party <;>
      simp only [mergeWanted, mergeHeld, hjobs]
  announcements := by
    rw [hannouncements]
    refine h.announcements.congr ?_ ?_ <;> intro party <;> cases party with
    | session other =>
        simp only [announcementWanted, announcementHeld, hstandings]
        exact bind_getElem?_concat rfl
    | job other => simp only [announcementWanted, announcementHeld, hjobs]

theorem InLine.happens {move : Move} (h : service.InLine) (hhappens : Happens service move next) :
    next.InLine := by
  cases hhappens with
  | nothing => exact h
  | progress hjob hstep hprogress =>
      exact h.passes hjob (passes_of_progress hprogress)
        (sameButTold_of_progress hprogress).sameSeats.standings
  | conduct hmove hconducts hend htasks => exact h.conducts hconducts htasks.jobs htasks.merges
  | crash hmove hconducts htasks => exact h.conducts hconducts htasks.jobs htasks.merges
  | @edit number session project edit delay hsession hidle hstate hdelay =>
      -- The session is armed first, and then its pass is added.
      have harmed : { service.withEdit number session project edit delay with
          jobs := service.jobs }.InLine :=
        h.conducts (conducts_withEdit hsession hidle hstate edit delay) rfl rfl
      exact harmed.addJob rfl rfl (.inl ⟨rfl, rfl, rfl⟩)
  | opened hmove hstandings hregistry hannouncements htasks =>
      exact h.opened htasks.jobs hstandings htasks.merges hannouncements
  | messages hmove hseats hannouncements htasks =>
      exact h.congr htasks.jobs hseats.standings htasks.merges hannouncements
  | merge hmove hpurpose => exact h.addJob rfl rfl (.inr (.inl ⟨rfl, rfl, rfl⟩))
  | announcement project => exact h.addJob rfl rfl (.inr (.inr ⟨rfl, rfl, rfl⟩))
  | wait duration => exact h.congr rfl rfl rfl rfl
  | access database => exact h.congr rfl rfl rfl rfl

/-- **Everybody is served in turn**, at every moment of a run. -/
theorem Run.inLine (run : Run) (moment : ℕ) : (run.state moment).InLine := by
  apply Run.invariant _ InLine.happens
  intro settings database supply service hstart
  obtain ⟨events, -, rfl⟩ := Option.map_eq_some_iff.mp hstart
  have hmem : ∀ {project : Int} {party : Party}, (project, party) ∈ ([] : List (Int × Party)) ↔
      (none : Option Int) = some project := by simp
  constructor
  · refine ⟨List.nodup_nil, ?_, ?_⟩ <;> intro project party <;> cases party
    · exact hmem
    · exact hmem
    · exact nofun
    · exact nofun
  · refine ⟨List.nodup_nil, ?_, ?_⟩ <;> intro project party <;> cases party
    · exact hmem
    · exact hmem
    · exact nofun
    · exact nofun

end Service

end PlcTags
