import PlcTags.Proofs.Service.Edits

/-!
# Every pass has its say once

A pass asks for its merge at one moment at most, and so there is at most one call that is its
own.  A message that ends it comes at one moment at most, to one session.  An event tells of
it if its merge has succeeded, once the announcement is over, and not otherwise: what a pass
has said so far fits what its call has returned (`Run.account`).
-/

namespace PlcTags.Service

open Live

variable {service next : Service} {move : Move} {number index sync : Nat} {job later : Job}
  {pass : Pass} {stage : Stage} {calls after : List MergeCall} {report other : MergeReport}

/-! ## One merge, one message -/

namespace Run

variable {run : Run} {moment second : ℕ}

/-- The pass with this number asks for its merge. -/
def Asks (run : Run) (moment : ℕ) (sync : Nat) : Prop :=
  ∃ (index : Nat) (job later : Job) (pass : Pass), (run.state moment).jobs[index]? = some job ∧
    (run.state (moment + 1)).jobs[index]? = some later ∧ job.pass? = some pass ∧
    later.pass? = some pass ∧ pass.sync = sync ∧ job.stage.rank < 3 ∧ later.stage.rank = 3

theorem Asks.not_lt (h : run.Asks moment sync) (hsecond : run.Asks second sync) :
    ¬ moment < second := by
  intro hlt
  obtain ⟨_, _, asked, pass, -, hasked, -, hpass, hsync, -, hrank⟩ := h
  obtain ⟨_, job, _, other, hjob, -, hother, -, hsame, hearly, -⟩ := hsecond
  obtain ⟨-, -, -, hle⟩ := run.eq_of_sync (Nat.succ_le_of_lt hlt) hasked hjob hpass hother
    (hsync.trans hsame.symm)
  omega

theorem Asks.eq (h : run.Asks moment sync) (hsecond : run.Asks second sync) :
    moment = second :=
  Nat.le_antisymm (Nat.le_of_not_lt (hsecond.not_lt h)) (Nat.le_of_not_lt (h.not_lt hsecond))

theorem Tells.lastWord {index : Nat} (h : run.Tells moment sync index) :
    ∃ number pass, pass.sync = sync ∧ pass.session = index ∧
      (run.state moment).LastWord number pass (run.state (moment + 1)) ∧
      (run.state (moment + 1)).tally sync index = (run.state moment).tally sync index + 1 :=
  lastWord_of_tally_lt h.unposted h.more

theorem Tells.not_lt {first last : Nat} (h : run.Tells moment sync first)
    (hsecond : run.Tells second sync last) : ¬ moment < second := by
  intro hlt
  obtain ⟨_, pass, hsync, -, hlast, -⟩ := h.lastWord
  obtain ⟨_, other, hother, -, hlater, -⟩ := hsecond.lastWord
  obtain ⟨job, hjob, hpass, hrank⟩ := hlast.after
  obtain ⟨later, hafter, hown, -, hearly⟩ := hlater.before
  obtain ⟨-, -, -, hle⟩ := run.eq_of_sync (Nat.succ_le_of_lt hlt) hjob hafter hpass hown
    (hsync.trans hother.symm)
  omega

/-- **A message that ends a pass comes once**, to one session. -/
theorem Tells.eq {first last : Nat} (h : run.Tells moment sync first)
    (hsecond : run.Tells second sync last) : moment = second ∧ first = last := by
  obtain rfl : moment = second :=
    Nat.le_antisymm (Nat.le_of_not_lt (hsecond.not_lt h)) (Nat.le_of_not_lt (h.not_lt hsecond))
  obtain ⟨_, pass, hsync, rfl, hlast, -⟩ := h.lastWord
  obtain ⟨_, other, hother, rfl, hlater, -⟩ := hsecond.lastWord
  obtain ⟨job, hjob, hpass, -⟩ := hlast.after
  obtain ⟨later, hafter, hown, -⟩ := hlater.after
  obtain ⟨-, rfl⟩ := (run.passesInOrder (moment + 1)).eq_of_sync hjob hafter hpass hown
    (hsync.trans hother.symm)
  exact ⟨rfl, rfl⟩

end Run

/-! ## Merges that have succeeded -/

/-- The merge of a job has returned this report. -/
def Succeeded (calls : List MergeCall) (number : Nat) (report : MergeReport) : Prop :=
  ∃ call ∈ calls, call.number = number ∧ call.returned = some (.ok report)

theorem succeeded_concat {call : MergeCall} (hcall : call.returned ≠ some (.ok report)) :
    Succeeded (calls ++ [call]) number report ↔ Succeeded calls number report := by
  constructor
  · rintro ⟨found, hfound, hnumber, hreturned⟩
    rcases List.mem_append.mp hfound with hold | hnew
    · exact ⟨found, hold, hnumber, hreturned⟩
    · obtain rfl := List.mem_singleton.mp hnew
      exact absurd hreturned hcall
  · rintro ⟨found, hfound, hsucceeded⟩
    exact ⟨found, List.mem_append_left _ hfound, hsucceeded⟩

/-- A change of the call of another job, or one that leaves alone what was returned. -/
theorem succeeded_onCall {change : MergeCall → MergeCall}
    (hnumber : ∀ call, (change call).number = call.number)
    (hchange : index ≠ number ∨ ∀ call, (change call).returned = call.returned) :
    Succeeded (onCall index change calls) number report ↔ Succeeded calls number report := by
  have hsame : ∀ call : MergeCall, (if call.number = index then change call else call).number =
      number ∧ (if call.number = index then change call else call).returned =
        some (.ok report) ↔ call.number = number ∧ call.returned = some (.ok report) := by
    intro call
    split
    · rename_i hindex
      rw [hnumber]
      refine and_congr_right fun hown => ?_
      rcases hchange with hne | hreturned
      · exact absurd (hindex.symm.trans hown) hne
      · rw [hreturned]
    · rfl
  constructor
  · rintro ⟨found, hfound, hsucceeded⟩
    obtain ⟨call, hcall, rfl⟩ := List.mem_map.mp hfound
    exact ⟨call, hcall, (hsame call).mp hsucceeded⟩
  · rintro ⟨call, hcall, hsucceeded⟩
    exact ⟨_, List.mem_map_of_mem hcall, (hsame call).mpr hsucceeded⟩

theorem rank_of_result? {result : Except Failure MergeReport} (h : stage.result? = some result) :
    5 ≤ stage.rank := by
  cases stage with
  | announcing | delivering | ended => simp [Stage.rank]
  | _ => cases h

/-- What a moment does to the success of a merge. -/
inductive SucceedsGo (service : Service) (move : Move) (calls : List MergeCall) (next : Service)
    (after : List MergeCall) (number : Nat) : Prop where
  | same (hsame : ∀ report, Succeeded after number report ↔ Succeeded calls number report)
      (hmerging : ∀ {job later : Job}, service.jobs[number]? = some job →
        next.jobs[number]? = some later → job.stage.rank = 4 → later.stage.rank = 4)
  /-- The merge is over, and has left its report with the job. -/
  | finish {job later : Job} {report : MergeReport} (hmove : move = .step (.job number))
      (hjob : service.jobs[number]? = some job) (hrank : job.stage.rank = 4)
      (hlater : next.jobs[number]? = some later)
      (hresult : later.stage.result? = some (.ok report))
      (hsuccess : ∀ other, Succeeded after number other ↔ other = report)

/-- Only the end of a merge decides about its success. -/
theorem SucceedsGo.succeeded_iff (h : SucceedsGo service move calls next after number)
    (hjob : service.jobs[number]? = some job) (hlater : next.jobs[number]? = some later)
    (hkept : job.stage.rank ≠ 4 ∨ later.stage.rank < 5) (report : MergeReport) :
    Succeeded after number report ↔ Succeeded calls number report := by
  cases h with
  | same hsame => exact hsame report
  | finish _ hbefore hmerging hafter hresult =>
      obtain rfl := Option.some.inj (hjob.symm.trans hbefore)
      obtain rfl := Option.some.inj (hlater.symm.trans hafter)
      rcases hkept with hne | hearly
      · exact absurd hmerging hne
      · exact absurd hearly (Nat.not_lt_of_le (rank_of_result? hresult))

/-- A job that merges still does so after the step of any job, but for its own last one. -/
theorem Steps.rank_eq_of_rank_eq {owner : Nat} (h : service.Steps owner job stage next)
    (hkept : job.stage.rank ≠ 4 ∨ stage.rank = 4 ∨ owner ≠ number) {found : Job}
    (hfound : service.jobs[number]? = some found) (hlater : next.jobs[number]? = some later)
    (hrank : found.stage.rank = 4) : later.stage.rank = 4 := by
  by_cases howner : owner = number
  · subst howner
    obtain rfl := Option.some.inj (h.before.symm.trans hfound)
    obtain rfl := Option.some.inj (h.getElem?_self.symm.trans hlater)
    rcases hkept with hne | hstage | hne
    · exact absurd hrank hne
    · exact hstage
    · exact absurd rfl hne
  · rw [h.getElem?_of_ne (Ne.symm howner)] at hlater
    obtain rfl := Option.some.inj (hfound.symm.trans hlater)
    exact hrank

theorem Happens.succeedsGo (h : Happens service move next) (hreports : service.Returns calls)
    (number : Nat) :
    SucceedsGo service move calls next (service.recorded next calls move) number := by
  have hcalls := h.callsGo calls
  generalize service.recorded next calls move = after at hcalls ⊢
  cases hcalls with
  | stay hstore hstays =>
      refine .same (fun _ => Iff.rfl) ?_
      intro job later hjob hlater hrank
      obtain rfl := Option.some.inj (((hstays hrank).mpr hjob).symm.trans hlater)
      exact hrank
  | load hmove hstage hturn hloads hsteps =>
      exact .same (fun report => succeeded_concat nofun)
        (hsteps.rank_eq_of_rank_eq (.inr (.inl rfl)))
  | fail hmove hstage hturn hfails hsteps =>
      refine .same (fun report => succeeded_concat nofun) (hsteps.rank_eq_of_rank_eq (.inl ?_))
      rw [hstage]
      exact nofun
  | take hmove hstage hsteps =>
      exact .same (fun report => succeeded_onCall (fun _ => rfl) (.inr fun _ => rfl))
        (hsteps.rank_eq_of_rank_eq (.inr (.inl rfl)))
  | @finish owner job merge diagnostics stage hmove hstage hsteps hrank hresult =>
      by_cases howner : owner = number
      · subst howner
        have hbefore : job.stage.rank = 4 := by rw [hstage]; rfl
        refine .finish hmove hsteps.before hbefore hsteps.getElem?_self hresult ?_
        intro other
        obtain ⟨call, hcall, hnumber⟩ := hreports.merging hsteps.before hbefore
        constructor
        · -- Of the calls with this number only the open one has returned now.
          rintro ⟨found, hfound, hown, hreturned⟩
          obtain ⟨old, -, rfl⟩ := List.mem_map.mp hfound
          split at hown
          · rw [if_pos ‹_›] at hreturned
            exact (Except.ok.inj (Option.some.inj hreturned)).symm
          · exact absurd hown ‹_›
        · rintro rfl
          subst hnumber
          exact ⟨_, mem_onCall_self hcall, rfl, rfl⟩
      · exact .same (fun report => succeeded_onCall (fun _ => rfl) (.inl howner))
          (hsteps.rank_eq_of_rank_eq (.inr (.inr howner)))

/-! ## Events -/

namespace Run

variable {run : Run} {moment : ℕ}

/-- The steps of a job before a moment have emitted nothing. -/
def Silent (run : Run) (moment : ℕ) (index : Nat) : Prop :=
  ∀ earlier < moment, run.moves earlier = .step (.job index) →
    (run.state (earlier + 1)).events = (run.state earlier).events

/-- Of the steps of a job before a moment one has emitted that its edit was merged, with what
the report says, and the others have emitted nothing. -/
def AnnouncesOnce (run : Run) (moment : ℕ) (index : Nat) (project : Int) (report : MergeReport) :
    Prop :=
  ∃ last < moment, run.moves last = .step (.job index) ∧
    (run.state (last + 1)).events = (run.state last).events.emit
      (mergedEvent project report (run.state last).supply.stamp.time) ∧
    ∀ earlier < moment, earlier ≠ last → run.moves earlier = .step (.job index) →
      (run.state (earlier + 1)).events = (run.state earlier).events

/-- The job emits nothing at a moment. -/
def Rests (run : Run) (moment : ℕ) (index : Nat) : Prop :=
  run.moves moment = .step (.job index) →
    (run.state (moment + 1)).events = (run.state moment).events

theorem Silent.succ (h : run.Silent moment index) (hrests : run.Rests moment index) :
    run.Silent (moment + 1) index := by
  intro earlier hlt hmove
  rcases Nat.lt_succ_iff_lt_or_eq.mp hlt with hlt | rfl
  · exact h earlier hlt hmove
  · exact hrests hmove

theorem AnnouncesOnce.succ {project : Int} (h : run.AnnouncesOnce moment index project report)
    (hrests : run.Rests moment index) : run.AnnouncesOnce (moment + 1) index project report := by
  obtain ⟨last, hlast, hmove, hemits, hothers⟩ := h
  refine ⟨last, Nat.lt_succ_of_lt hlast, hmove, hemits, ?_⟩
  intro earlier hlt hne howner
  rcases Nat.lt_succ_iff_lt_or_eq.mp hlt with hlt | rfl
  · exact hothers earlier hlt hne howner
  · exact hrests howner

theorem Silent.announcesOnce {project : Int} (h : run.Silent moment index)
    (hmove : run.moves moment = .step (.job index))
    (hemits : (run.state (moment + 1)).events = (run.state moment).events.emit
      (mergedEvent project report (run.state moment).supply.stamp.time)) :
    run.AnnouncesOnce (moment + 1) index project report := by
  refine ⟨moment, Nat.lt_succ_self moment, hmove, hemits, ?_⟩
  intro earlier hlt hne howner
  exact h earlier (Nat.lt_of_le_of_ne (Nat.le_of_lt_succ hlt) hne) howner

/-- What a pass has said so far, and what its call has returned. -/
inductive Account (run : Run) (moment : ℕ) (index : Nat) (job : Job) : Prop where
  | merges (hrank : job.stage.rank < 5)
      (hnone : ∀ report, ¬ Succeeded (run.calls moment) index report)
      (hsilent : run.Silent moment index)
  | announces {report : MergeReport} {diagnostics : List Diagnostic}
      (hstage : job.stage.IsAnnouncing (some report) diagnostics)
      (hsuccess : ∀ other, Succeeded (run.calls moment) index other ↔ other = report)
      (hsilent : run.Silent moment index)
  | failed (hrank : 7 ≤ job.stage.rank)
      (hnone : ∀ report, ¬ Succeeded (run.calls moment) index report)
      (hsilent : run.Silent moment index)
  | announced {report : MergeReport} (hrank : 7 ≤ job.stage.rank)
      (hsuccess : ∀ other, Succeeded (run.calls moment) index other ↔ other = report)
      (honce : run.AnnouncesOnce moment index job.project report)

/-- Nothing is said of a pass that stays at its stage. -/
theorem Account.stay (h : run.Account moment index job)
    (hsame : ∀ report, Succeeded (run.calls (moment + 1)) index report ↔
      Succeeded (run.calls moment) index report)
    (hrests : run.Rests moment index) : run.Account (moment + 1) index job := by
  cases h with
  | merges hrank hnone hsilent =>
      exact .merges hrank (fun report => (hsame report).not.mpr (hnone report))
        (hsilent.succ hrests)
  | announces hstage hsuccess hsilent =>
      exact .announces hstage (fun other => (hsame other).trans (hsuccess other))
        (hsilent.succ hrests)
  | failed hrank hnone hsilent =>
      exact .failed hrank (fun report => (hsame report).not.mpr (hnone report))
        (hsilent.succ hrests)
  | announced hrank hsuccess honce =>
      exact .announced hrank (fun other => (hsame other).trans (hsuccess other))
        (honce.succ hrests)

/-- A pass that has not been merged has nothing to tell. -/
theorem Account.of_rank_lt (h : run.Account moment index job) (hrank : job.stage.rank < 5) :
    (∀ report, ¬ Succeeded (run.calls moment) index report) ∧ run.Silent moment index := by
  cases h with
  | merges _ hnone hsilent => exact ⟨hnone, hsilent⟩
  | announces hstage =>
      have := rank_of_isAnnouncing hstage
      omega
  | failed hlast | announced hlast => omega

/-- A pass that announces its project has the report of its merge. -/
theorem Account.of_isAnnouncing {diagnostics : List Diagnostic} {left : Option MergeReport}
    (h : run.Account moment index job) (hstage : job.stage.IsAnnouncing left diagnostics) :
    ∃ report, left = some report ∧
      (∀ other, Succeeded (run.calls moment) index other ↔ other = report) ∧
      run.Silent moment index := by
  have hrank := rank_of_isAnnouncing hstage
  cases h with
  | @announces report problems hother hsuccess hsilent =>
      refine ⟨report, ?_, hsuccess, hsilent⟩
      rcases hstage with hstage | ⟨tags, hstage⟩ <;>
        rcases hother with hother | ⟨same, hother⟩
      · exact (Stage.announcing.inj (hstage.symm.trans hother)).1
      · cases hstage.symm.trans hother
      · cases hstage.symm.trans hother
      · exact (Stage.delivering.inj (hstage.symm.trans hother)).1
  | merges hlast | failed hlast | announced hlast => omega

/-- The step of a pass keeps the account. -/
theorem Account.step (h : run.Account moment index job)
    (hmove : run.moves moment = .step (.job index))
    (hsteps : (run.state moment).Steps index job stage (run.state (moment + 1)))
    (hgo : PassGo (run.state moment) job pass stage (run.state (moment + 1))) :
    run.Account (moment + 1) index (job.withStage stage) := by
  have hgoes : SucceedsGo (run.state moment) _ (run.calls moment) (run.state (moment + 1))
      (run.calls (moment + 1)) index :=
    (run.happens moment).succeedsGo (run.returns_calls moment) index
  have hrank : job.stage.rank ≤ stage.rank := by
    obtain ⟨same, hlater, hle, -⟩ := (run.happens moment).jobsGo.getElem? hsteps.before
    have heq := Option.some.inj (hlater.symm.trans hsteps.getElem?_self)
    rwa [show same = stage from congrArg Job.stage heq] at hle
  -- What has succeeded can change only when a merge ends.
  have hsame : job.stage.rank ≠ 4 ∨ stage.rank < 5 → ∀ report,
      Succeeded (run.calls (moment + 1)) index report ↔
        Succeeded (run.calls moment) index report :=
    hgoes.succeeded_iff hsteps.before hsteps.getElem?_self
  cases hgo with
  | goes hearly hstill =>
      obtain ⟨hnone, hsilent⟩ := h.of_rank_lt (Nat.lt_of_le_of_lt hrank hearly)
      exact .merges hearly (fun report => ((hsame (.inr hearly)) report).not.mpr (hnone report))
        (hsilent.succ fun _ => hstill.events)
  | superseded hearly hstill =>
      obtain ⟨hnone, hsilent⟩ := h.of_rank_lt (Nat.lt_trans hearly (by decide))
      exact .failed (Nat.le_succ 7)
        (fun report => (hsame (.inl (by omega)) report).not.mpr (hnone report))
        (hsilent.succ fun _ => hstill.events)
  | @merged report diagnostics _ hmerging hstill =>
      obtain ⟨-, hsilent⟩ := h.of_rank_lt (by omega)
      refine .announces (.inl rfl) ?_ (hsilent.succ fun _ => hstill.events)
      cases hgoes with
      | same _ hstays => cases hstays hsteps.before hsteps.getElem?_self hmerging
      | finish _ hjob _ hlater hresult hsuccess =>
          obtain rfl := Option.some.inj (hsteps.getElem?_self.symm.trans hlater)
          obtain rfl := Except.ok.inj (Option.some.inj hresult)
          exact hsuccess
  | @listed left diagnostics tags _ hstage hstill =>
      obtain ⟨report, rfl, hsuccess, hsilent⟩ := h.of_isAnnouncing (.inl hstage)
      have hnot : job.stage.rank ≠ 4 := by rw [hstage]; nofun
      exact .announces (.inr ⟨tags, rfl⟩)
        (fun other => (hsame (.inl hnot) other).trans (hsuccess other))
        (hsilent.succ fun _ => hstill.events)
  | fails hqueued hsaid _ hevents =>
      obtain ⟨hnone, hsilent⟩ := h.of_rank_lt (by omega)
      exact .failed (rank_of_isSaid hsaid)
        (fun report => (hsame (.inl (by omega)) report).not.mpr (hnone report))
        (hsilent.succ fun _ => hevents)
  | completes hstage hsaid _ hevents =>
      obtain ⟨report, rfl, hsuccess, hsilent⟩ := h.of_isAnnouncing hstage
      have hlate := rank_of_isAnnouncing hstage
      exact .announced (rank_of_isSaid hsaid)
        (fun other => (hsame (.inl (by omega)) other).trans (hsuccess other))
        (hsilent.announcesOnce hmove hevents)
  | rests hstage hstill =>
      have hlast : job.stage.rank = 7 := by rw [hstage]; rfl
      have hkept := h.stay (hsame (.inl (by omega))) fun _ => hstill.events
      cases hkept with
      | failed _ hnone hsilent => exact .failed (Nat.le_succ 7) hnone hsilent
      | announced _ hsuccess honce => exact .announced (Nat.le_succ 7) hsuccess honce
      | merges hearly => omega
      | announces hother =>
          have := rank_of_isAnnouncing hother
          omega

end Run

/-! ## When nobody can go on -/

/-- So does a job. -/
theorem jobStep?_ne_none {project : Int} (hjob : service.jobs[number]? = some job)
    (hwanted : job.announcementWanted = some project)
    (hheld : service.announcements.isHeldBy project (.job number) = true) :
    service.jobStep? number ≠ none := by
  obtain ⟨hrank, hproject⟩ := Option.ite_none_right_eq_some.mp hwanted
  obtain rfl := Option.some.inj hproject
  rw [jobStep?, hjob, Option.bind_eq_bind, Option.bind_some]
  cases hstage : job.stage with
  | announcing report diagnostics =>
      simp only [hheld, if_true]
      exact Option.some_ne_none _
  | delivering report diagnostics tags => exact Option.some_ne_none _
  | _ =>
      rw [hstage] at hrank
      simp [Stage.rank] at hrank

end PlcTags.Service
