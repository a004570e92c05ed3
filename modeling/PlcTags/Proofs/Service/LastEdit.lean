import PlcTags.Proofs.Service.Closing
import PlcTags.Proofs.Service.Order
import PlcTags.Proofs.Service.Serializable
import PlcTags.Proofs.Store.Agreement

/-!
# The last edit decides

The tags with one key that have been taken by merges so far, the last one first, are what
decides about the row of the key: it carries the last of them, unless a write has failed or
somebody else has written there (`Tracks`).  The batch of a pass are the accepted tags of
its edit (`ReadsEdits`), and the passes of a session get their turns in the order of their
edits.  So in the end the row carries the last tag of the last edit that has one
(`Run.appliesInOrder`).
-/

namespace PlcTags.Service

open Live

variable {service next : Service} {move : Move} {number : Nat} {job : Job} {pass : Pass}
  {calls later : List MergeCall} {call : MergeCall} {project : Int} {key : String} {tag : Tag}

/-! ## The last touch -/

/-- The tags with a key that the merge of a call has taken so far. -/
def touches (key : String) (call : MergeCall) : List Tag :=
  (call.batch.take call.turns.length).filter (·.key == key)

/-- The last tag with a key that was taken, and the call that took it. -/
def lastTouch? (key : String) (calls : List MergeCall) : Option (MergeCall × Tag) :=
  calls.reverse.findSome? fun call => (touches key call).getLast?.map (Prod.mk call)

theorem lastTouch?_concat (key : String) (calls : List MergeCall) (call : MergeCall) :
    lastTouch? key (calls ++ [call]) =
      ((touches key call).getLast?.map (Prod.mk call)).or (lastTouch? key calls) := by
  rw [lastTouch?, List.reverse_concat, List.findSome?_cons]
  cases (touches key call).getLast? <;> rfl

theorem mem_of_lastTouch? (h : lastTouch? key calls = some (call, tag)) : call ∈ calls := by
  obtain ⟨found, hfound, hlast⟩ := List.exists_of_findSome?_eq_some h
  obtain ⟨last, -, hpair⟩ := Option.map_eq_some_iff.mp hlast
  obtain ⟨rfl, -⟩ := Prod.mk.inj hpair
  exact List.mem_reverse.mp hfound

/-- Calls that touch nothing do not matter. -/
theorem lastTouch?_append {rest : List MergeCall} (hrest : ∀ call ∈ rest, touches key call = []) :
    lastTouch? key (calls ++ rest) = lastTouch? key calls := by
  induction rest using List.reverseRecOn with
  | nil => rw [List.append_nil]
  | append_singleton rest call ih =>
      obtain ⟨hearlier, hlast⟩ := List.forall_mem_append.mp hrest
      rw [← List.append_assoc, lastTouch?_concat, hlast call List.mem_cons_self,
        ih hearlier]
      rfl

theorem touches_of_turns (hturns : call.turns = []) : touches key call = [] := by
  rw [touches, hturns]
  rfl

/-- No write of the call has failed so far. -/
structure IsUnrefused (service : Service) (project : Int) (call : MergeCall) : Prop where
  returned : ∀ report, call.returned = some (.ok report) →
    ∀ problem ∈ report.errors, problem.code ≠ .storeConflict
  merging : ∀ {merge : Merge} {rest : List Tag},
    service.MergesAt project call.number merge rest → merge.Succeeds

/-- The row of a key is what the merges say, and the merge that is on its way knows it. -/
structure Tracks (service : Service) (project : Int) (key : String) (calls : List MergeCall) :
    Prop where
  knows : ∀ {number : Nat} {merge : Merge} {rest : List Tag},
    service.MergesAt project number merge rest →
      merge.project = project ∧ merge.KnowsAt service.database.store key
  last : ∀ {call : MergeCall} {tag : Tag}, lastTouch? key calls = some (call, tag) →
    service.IsUnrefused project call →
      ∃ row, service.database.store.findRow? project key = some row ∧ row.Carries tag

theorem mergesAt_inj {merge other : Merge} {rest left : List Tag}
    (h : service.MergesAt project number merge rest)
    (h' : service.MergesAt project number other left) : merge = other := by
  obtain ⟨job, diagnostics, hjob, -, hstage⟩ := h
  obtain ⟨found, problems, hfound, -, hstage'⟩ := h'
  obtain rfl := Option.some.inj (hjob.symm.trans hfound)
  exact (Stage.merging.inj (hstage.symm.trans hstage')).1

theorem Tracks.quiet (h : service.Tracks project key calls)
    (hrow : next.database.store.findRow? project key =
      service.database.store.findRow? project key)
    (hmerging : ∀ {number : Nat} {merge : Merge} {rest : List Tag},
      next.MergesAt project number merge rest ↔ service.MergesAt project number merge rest) :
    next.Tracks project key calls where
  knows := by
    intro number merge rest hmerges
    obtain ⟨hproject, hknows⟩ := h.knows (hmerging.mp hmerges)
    refine ⟨hproject, hknows.congr ?_ rfl⟩
    rw [hproject]
    exact hrow
  last := by
    intro call tag hlast hunrefused
    rw [hrow]
    refine h.last hlast ⟨hunrefused.returned, ?_⟩
    exact fun hmerges => hunrefused.merging (hmerging.mpr hmerges)

/-- A new call has touched nothing. -/
theorem Tracks.concat (h : service.Tracks project key calls) (hturns : call.turns = [])
    (hfree : ∀ {number : Nat} {merge : Merge} {rest : List Tag},
      ¬ service.MergesAt project number merge rest)
    (hdatabase : next.database = service.database)
    (hknows : ∀ {number : Nat} {merge : Merge} {rest : List Tag},
      next.MergesAt project number merge rest →
        merge.project = project ∧ merge.KnowsAt service.database.store key) :
    next.Tracks project key (calls ++ [call]) where
  knows := by
    rw [hdatabase]
    exact hknows
  last := by
    intro found tag hlast hunrefused
    rw [lastTouch?_concat, touches_of_turns hturns] at hlast
    rw [hdatabase]
    exact h.last hlast ⟨hunrefused.returned, fun hmerges => absurd hmerges hfree⟩

theorem touches_take {taken rest : List Tag} (hbatch : call.batch = taken ++ tag :: rest)
    (hlength : taken.length = call.turns.length) (database : Database) (keys : List String) :
    touches key { call with turns := call.turns ++ [database], inserted := keys } =
      touches key call ++ [tag].filter (·.key == key) := by
  have htaken : call.batch.take call.turns.length = taken := by
    rw [hbatch, ← hlength, List.take_left]
  have hmore : call.batch.take (call.turns ++ [database]).length = taken ++ [tag] := by
    rw [hbatch, List.length_append, ← hlength, List.length_singleton, List.take_length_add_append]
    rfl
  rw [touches, touches, hmore, htaken, List.filter_append]

/-- What the merge on its way has not touched is as the calls before have left it. -/
theorem Tracks.last_of_done {done : List MergeCall} {found : MergeCall} {merge : Merge}
    {rest : List Tag} (h : service.Tracks project key (done ++ [call]))
    (hturns : service.InTurn project (done ++ [call]))
    (hmerges : service.MergesAt project call.number merge rest)
    (hearlier : ∀ earlier ∈ done, earlier.number ≠ call.number)
    (hnone : (touches key call).getLast? = none)
    (hlast : lastTouch? key done = some (found, tag))
    (hunrefused : next.IsUnrefused project found) :
    ∃ row, service.database.store.findRow? project key = some row ∧ row.Carries tag := by
  have htouch : lastTouch? key (done ++ [call]) = some (found, tag) := by
    rw [lastTouch?_concat, hnone]
    exact hlast
  refine h.last htouch ⟨hunrefused.returned, ?_⟩
  intro other left hother
  exact absurd (hturns.number_eq hother hmerges) (hearlier found (mem_of_lastTouch? hlast))

theorem Tracks.take {merge : Merge} {rest : List Tag} (h : service.Tracks project key calls)
    (hturns : service.InTurn project calls)
    (hmerges : service.MergesAt project number merge (tag :: rest))
    (hnow : ∀ {other : Nat} {after : Merge} {left : List Tag},
      next.MergesAt project other after left ↔ other = number ∧
        after = (merge.step service.supply.stamp service.database tag).1 ∧ left = rest)
    (hdatabase : next.database = (merge.step service.supply.stamp service.database tag).2)
    (inserted : MergeCall → List String) :
    next.Tracks project key (onCall number (fun call =>
      { call with
        turns := call.turns ++ [service.database]
        inserted := inserted call }) calls) := by
  obtain ⟨done, call, rfl, rfl, ⟨hown, hreturned, taken, hbatch, hlength⟩, hearlier, -⟩ :=
    hturns.merging hmerges
  obtain ⟨hproject, hknows⟩ := h.knows hmerges
  have hframe := (merge.step_frame service.supply.stamp service.database tag).1.trans hproject
  rw [onCall_concat hearlier]
  -- Either the tag is the one whose last touch is tracked, or its row stays as it is.
  by_cases hkey : key = tag.key
  · subst hkey
    obtain ⟨hafter, hcarries⟩ := hknows.step_self service.supply.stamp
    constructor
    · intro other after left hother
      obtain ⟨-, rfl, -⟩ := hnow.mp hother
      rw [hdatabase]
      exact ⟨hframe, hafter⟩
    · intro found last hlast hunrefused
      rw [lastTouch?_concat, touches_take hbatch hlength, List.filter_cons_of_pos (by simp),
        List.filter_nil, List.getLast?_concat] at hlast
      obtain ⟨rfl, rfl⟩ := Prod.mk.inj (Option.some.inj hlast)
      rw [hdatabase, ← hproject]
      exact hcarries (hunrefused.merging (hnow.mpr ⟨rfl, rfl, rfl⟩))
  · obtain ⟨hrow, hafter⟩ := hknows.step_of_ne hkey service.supply.stamp
    rw [hproject] at hrow
    constructor
    · intro other after left hother
      obtain ⟨-, rfl, -⟩ := hnow.mp hother
      rw [hdatabase]
      exact ⟨hframe, hafter⟩
    · intro found last hlast hunrefused
      rw [lastTouch?_concat, touches_take hbatch hlength,
        List.filter_cons_of_neg (by simpa using Ne.symm hkey), List.filter_nil,
        List.append_nil] at hlast
      rw [hdatabase, hrow]
      -- The last touch was made by an earlier call, or by this one before the tag.
      cases htouched : (touches key call).getLast? with
      | none =>
          rw [htouched] at hlast
          exact h.last_of_done hturns hmerges hearlier htouched hlast hunrefused
      | some touched =>
          rw [htouched] at hlast
          obtain ⟨rfl, rfl⟩ := Prod.mk.inj (Option.some.inj hlast)
          have hsucceeds :
              ((MergeRun.mk merge service.database service.supply).take tag).merge.Succeeds :=
            hunrefused.merging (hnow.mpr ⟨rfl, rfl, rfl⟩)
          have htouch : lastTouch? key (done ++ [call]) = some (call, touched) := by
            rw [lastTouch?_concat, htouched]
            rfl
          refine h.last htouch ⟨?_, ?_⟩
          · exact fun report hreport => by cases hreturned.symm.trans hreport
          · intro other left hother
            rw [mergesAt_inj hother hmerges]
            exact (MergeRun.succeeds_of_take hsucceeds).1

theorem Tracks.finish {merge : Merge} (h : service.Tracks project key calls)
    (hturns : service.InTurn project calls) (hmerges : service.MergesAt project number merge [])
    (hnow : ∀ {other : Nat} {after : Merge} {left : List Tag},
      ¬ next.MergesAt project other after left)
    (hdatabase : next.database = service.database) :
    next.Tracks project key
      (onCall number ({ · with returned := some (.ok merge.report) }) calls) := by
  obtain ⟨done, call, rfl, rfl, ⟨hown, hreturned, -⟩, hearlier, -⟩ := hturns.merging hmerges
  rw [onCall_concat hearlier]
  constructor
  · exact fun hother => absurd hother hnow
  · intro found last hlast hunrefused
    rw [lastTouch?_concat] at hlast
    rw [hdatabase]
    cases htouched : (touches key call).getLast? with
    | none =>
        have hlast' : ((touches key call).getLast?.map _).or _ = some (found, last) := hlast
        rw [htouched] at hlast'
        exact h.last_of_done hturns hmerges hearlier htouched hlast' hunrefused
    | some touched =>
        have hlast' : ((touches key call).getLast?.map _).or _ = some (found, last) := hlast
        rw [htouched] at hlast'
        obtain ⟨rfl, rfl⟩ := Prod.mk.inj (Option.some.inj hlast')
        have htouch : lastTouch? key (done ++ [call]) = some (call, touched) := by
          rw [lastTouch?_concat, htouched]
          rfl
        refine h.last htouch ⟨?_, ?_⟩
        · exact fun report hreport => by cases hreturned.symm.trans hreport
        · intro other left hother
          rw [mergesAt_inj hother hmerges]
          exact hunrefused.returned merge.report rfl

/-- **The row of a key stays what the merges say**, unless somebody else writes there. -/
theorem Tracks.go (h : service.Tracks project key calls) (hturns : service.InTurn project calls)
    (hspared : ∀ database, move = .access database →
      database.store.findRow? project key = service.database.store.findRow? project key)
    (hgo : TurnGo service move project next calls later) : next.Tracks project key later := by
  cases hgo with
  | quiet hstore hmerging =>
      refine h.quiet ?_ hmerging
      rcases hstore with hstore | ⟨database, hmove, hdatabase⟩
      · exact hstore key
      · rw [hdatabase]
        exact hspared database hmove
  | @load number origin batch stored hfree hloads hnow hdatabase =>
      refine h.concat rfl hfree hdatabase ?_
      intro other merge rest hmerges
      obtain ⟨-, rfl, -⟩ := hnow.mp hmerges
      exact ⟨rfl, (Merge.knows_start (Database.list_eq_ok hloads) origin).at_key key⟩
  | fail hfree hfails hnow hdatabase =>
      exact h.concat rfl hfree hdatabase fun hmerges => absurd hmerges hnow
  | take hmerges hnow hdatabase => exact h.take hturns hmerges hnow hdatabase _
  | finish hmerges hnow hdatabase => exact h.finish hturns hmerges hnow hdatabase

/-- Until a moment nobody but the jobs writes to a key of a project. -/
def Run.SparesKey (run : Run) (moment : ℕ) (project : Int) (key : String) : Prop :=
  ∀ earlier < moment, ∀ database, run.moves earlier = .access database →
    database.store.findRow? project key = (run.state earlier).database.store.findRow? project key

theorem Run.tracks (run : Run) {moment : ℕ} (hspares : run.SparesKey moment project key) :
    (run.state moment).Tracks project key (callsOn project (run.calls moment)) := by
  induction moment with
  | zero => exact ⟨fun hmerges => absurd hmerges run.not_mergesAt_zero, nofun⟩
  | succ moment ih =>
      have hearlier : run.SparesKey moment project key :=
        fun earlier hlt => hspares earlier (Nat.lt_succ_of_lt hlt)
      exact (ih hearlier).go (run.inTurn moment project)
        (hspares moment (Nat.lt_succ_self moment)) (run.turnGo moment project)

/-! ## What passes merge -/

/-- The tags of an edit that are accepted. -/
def tagsOf (edit : Edit) : List Tag :=
  acceptedTags (Source.extract edit.vendor edit.sourceText).tags

/-- A pass that has read its edit goes on with the tags that it has found. -/
def ReadsEdit (pass : Pass) : Stage → Prop
  | .validating tags _ => tags = (Source.extract pass.edit.vendor pass.edit.sourceText).tags
  | .queued _ batch _ => batch = tagsOf pass.edit
  | _ => True

def ReadsEdits (service : Service) : Prop :=
  ∀ {number : Nat} {job : Job} {pass : Pass}, service.jobs[number]? = some job →
    job.pass? = some pass → ReadsEdit pass job.stage

theorem readsEdit_of_rank {stage : Stage} (h : 4 ≤ stage.rank) : ReadsEdit pass stage := by
  cases stage with
  | validating | queued => simp [Stage.rank] at h
  | _ => trivial

theorem readsEdit_of_progress (h : ReadsEdit pass job.stage) (hpass : job.pass? = some pass)
    (hprogress : Progress service number job next) {after : Job}
    (hafter : next.jobs[number]? = some after) (hjob : service.jobs[number]? = some job) :
    ReadsEdit pass after.stage := by
  have hlate : 3 ≤ job.stage.rank → ReadsEdit pass after.stage := by
    intro hrank
    obtain ⟨stage, hjobs, hpassage⟩ := jobs_of_passes (passes_of_progress hprogress) hjob
    rw [hjobs, List.getElem?_set_self (List.getElem?_eq_some_iff.mp hjob).1] at hafter
    obtain rfl := Option.some.inj hafter
    apply readsEdit_of_rank
    rw [Job.stage_withStage]
    generalize job.stage.rank = before at hpassage hrank
    generalize stage.rank = after at hpassage
    generalize next.merges = merges, next.announcements = announcements at hpassage
    cases hpassage <;> omega
  have hsame : ∀ {other : Pass}, job.pass? = some other → other = pass :=
    fun hother => Option.some.inj (hother.symm.trans hpass)
  cases hprogress with
  | superseded | due =>
      rw [stage_of_setStage hafter]
      trivial
  | extracted hown hstage =>
      rw [stage_of_setStage hafter, hsame hown]
      rfl
  | validated hown hstage =>
      rw [hstage] at h
      rw [stage_of_setStage hafter]
      exact congrArg acceptedTags h
  | loaded hstage | unloaded hstage | merged hstage | finished hstage | listed hstage
  | unlisted hstage | delivered hstage | admitted _ hstage | unheard _ hstage =>
      exact hlate (by rw [hstage]; simp [Stage.rank])

theorem ReadsEdits.happens (h : service.ReadsEdits) (hhappens : Happens service move next) :
    next.ReadsEdits := by
  intro number after pass hafter hpass
  rcases hhappens.jobsGo.of_getElem? hafter with ⟨job, hjob, hsame⟩ | ⟨-, hjobs⟩
  · have hown : job.pass? = some pass := by rwa [hsame] at hpass
    obtain ⟨stage, hstage, -, hkept⟩ := hhappens.jobsGo.getElem? hjob
    by_cases hmove : move = .step (.job number)
    · subst hmove
      rcases hhappens.eq_or_progress hjob with rfl | hprogress
      · exact h hafter hpass
      · exact readsEdit_of_progress (h hjob hown) hown hprogress hafter hjob
    · obtain rfl := Option.some.inj (hstage.symm.trans hafter)
      rw [hkept hmove]
      exact h hjob hown
  · obtain ⟨delay, -, hdelayed⟩ := (hhappens.newPass hjobs hpass).delayed
    rw [hdelayed]
    trivial

theorem Run.readsEdits (run : Run) (moment : ℕ) : (run.state moment).ReadsEdits := by
  apply Run.invariant _ ReadsEdits.happens
  intro settings database supply service hstart
  obtain ⟨events, -, rfl⟩ := Option.map_eq_some_iff.mp hstart
  exact nofun

variable {moment : ℕ} {run : Run}

theorem Run.batch_of_pass (hcall : call ∈ run.calls moment)
    (hpass : (run.state moment).passOf? call = some pass) : call.batch = tagsOf pass.edit := by
  obtain ⟨earlier, -, job, diagnostics, hjob, hown, hstage⟩ := run.queued_of_pass hcall hpass
  have hreads := run.readsEdits earlier hjob hown
  rw [hstage] at hreads
  exact hreads

/-- Passes of one session on one project are in the order of their edits. -/
theorem Run.syncs_pairwise (run : Run) (moment : ℕ) :
    (run.calls moment).Pairwise fun first second => ∀ pass laterPass,
      (run.state moment).passOf? first = some pass →
      (run.state moment).passOf? second = some laterPass →
      pass.session = laterPass.session → first.project = second.project →
        pass.sync < laterPass.sync := by
  have hrecorded := run.recorded_calls moment
  have hdistinct := List.pairwise_map.mp hrecorded.nodup
  have horder := List.pairwise_map.mp (run.passes_pairwise moment)
  refine (hdistinct.and horder).imp_of_mem ?_
  intro first second hfirst hsecond hboth pass laterPass hpass hlaterPass hsession hproject
  obtain ⟨hne, hnot⟩ := hboth
  obtain ⟨job, hjob, hown, -⟩ := hrecorded.known first hfirst
  obtain ⟨later, hlater, hlaterOwn, -⟩ := hrecorded.known second hsecond
  rw [passOf?, hjob, Option.bind_some] at hpass
  rw [passOf?, hlater, Option.bind_some] at hlaterPass
  have hlt : first.number < second.number := by
    refine Nat.lt_of_le_of_ne (Nat.le_of_not_lt ?_) hne
    intro hlt
    refine hnot later job
      ⟨hlt, hlater, hjob, ⟨laterPass, pass, hlaterPass, hpass, hsession.symm⟩, ?_⟩
    rw [hlaterOwn, hown, hproject]
  exact ((run.passesInOrder moment).ordered hlt hjob hlater hpass hlaterPass).1

/-! ## The last edit -/

namespace Run

/-- Of the passes of its session this one has merged last among those that accept a tag with
a key; it has merged without a failure, and nobody else has written to the key. -/
structure IsLast (run : Run) (moment : ℕ) (call : MergeCall) (pass : Pass) (key : String) :
    Prop where
  mem : call ∈ run.calls moment
  isPass : (run.state moment).passOf? call = some pass
  reported : ∃ report, call.returned = some (.ok report) ∧
    ∀ problem ∈ report.errors, problem.code ≠ .storeConflict
  latest : ∀ other ∈ run.calls moment, other.project = call.project →
    key ∈ other.batch.map Tag.key → (∃ report, other.returned = some (.ok report)) →
      ∃ otherPass, (run.state moment).passOf? other = some otherPass ∧
        otherPass.session = pass.session ∧ otherPass.sync ≤ pass.sync
  spared : run.SparesKey moment call.project key
  /-- All merges are over. -/
  settled : ∀ job ∈ (run.state moment).jobs, isMerging job.stage = false

theorem IsLast.free (h : run.IsLast moment call pass key) {merge : Merge} {rest : List Tag} :
    ¬ (run.state moment).MergesAt project number merge rest := by
  rintro ⟨job, diagnostics, hjob, -, hstage⟩
  have hsettled := h.settled job (List.mem_of_getElem? hjob)
  rw [hstage] at hsettled
  cases hsettled

/-- After the last pass nobody has touched the key. -/
theorem IsLast.touches_eq_nil (h : run.IsLast moment call pass key) {done rest : List MergeCall}
    (hcalls : callsOn call.project (run.calls moment) = done ++ call :: rest) :
    ∀ later ∈ rest, touches key later = [] := by
  have hturns := run.inTurn moment call.project
  have hsublist : (callsOn call.project (run.calls moment)).Sublist (run.calls moment) :=
    List.filter_sublist
  have horder := (run.syncs_pairwise moment).sublist hsublist
  rw [hcalls] at horder
  intro later hlater
  have hmem : later ∈ callsOn call.project (run.calls moment) := by
    rw [hcalls]
    exact List.mem_append_right _ (List.mem_cons_of_mem _ hlater)
  have hproject := hturns.own later hmem
  obtain ⟨returned, hreturned⟩ := Option.isSome_iff_exists.mp (hturns.idle h.free later hmem)
  cases returned with
  | error failure => exact touches_of_turns (hturns.failed later hmem failure hreturned)
  | ok report =>
      by_contra htouches
      obtain ⟨tag, htag⟩ := List.exists_mem_of_ne_nil _ htouches
      obtain ⟨htaken, hkey⟩ := List.mem_filter.mp htag
      have hmentions : key ∈ later.batch.map Tag.key :=
        List.mem_map.mpr ⟨tag, List.mem_of_mem_take htaken, beq_iff_eq.mp hkey⟩
      obtain ⟨laterPass, hpass, hsession, hle⟩ := h.latest later (List.mem_filter.mp hmem).1
        hproject hmentions ⟨report, hreturned⟩
      have hlt := (List.pairwise_cons.mp (List.pairwise_append.mp horder).2.1).1 later hlater pass
        laterPass h.isPass hpass hsession.symm hproject.symm
      omega

/-- **Edits apply in their order.**  The passes of a session on a project get their turns to
merge in the order of their edits.  When all merges are over, the row of a key carries the
last accepted tag with that key in the last of the edits that have one. -/
theorem appliesInOrder (run : Run) (moment : ℕ) :
    ((run.calls moment).Pairwise fun first second => ∀ pass laterPass,
      (run.state moment).passOf? first = some pass →
      (run.state moment).passOf? second = some laterPass →
      pass.session = laterPass.session → first.project = second.project →
        pass.sync < laterPass.sync) ∧
    ∀ (call : MergeCall) (pass : Pass) (key : String) (tag : Tag),
      run.IsLast moment call pass key →
      (tagsOf pass.edit).reverse.find? (·.key == key) = some tag →
        ∃ row, (run.state moment).database.store.findRow? call.project key = some row ∧
          row.Carries tag := by
  refine ⟨run.syncs_pairwise moment, ?_⟩
  intro call pass key tag hlast htag
  obtain ⟨report, hreturned, hsucceeds⟩ := hlast.reported
  have hmem : call ∈ callsOn call.project (run.calls moment) :=
    List.mem_filter.mpr ⟨hlast.mem, beq_self_eq_true _⟩
  have hcomplete := (run.inTurn moment call.project).complete call hmem report hreturned
  -- The call has taken its whole batch, so its last tag with the key is that of the edit.
  have htouched : (touches key call).getLast? = some tag := by
    rw [touches, hcomplete, List.take_length, batch_of_pass hlast.mem hlast.isPass,
      List.getLast?_eq_head?_reverse, ← List.filter_reverse, List.head?_filter]
    exact htag
  obtain ⟨done, rest, hcalls⟩ := List.append_of_mem hmem
  have htouch : lastTouch? key (callsOn call.project (run.calls moment)) = some (call, tag) := by
    rw [hcalls, List.append_cons, lastTouch?_append (hlast.touches_eq_nil hcalls),
      lastTouch?_concat, htouched]
    rfl
  refine (run.tracks hlast.spared).last htouch ⟨?_, fun hmerges => absurd hmerges hlast.free⟩
  intro other hother
  obtain rfl := Except.ok.inj (Option.some.inj (hreturned.symm.trans hother))
  exact hsucceeds

/-- The pass of an edit waits behind another merge while the next edit of its session comes,
whose pass is then tried first. -/
def heldRun : Run where
  first := openService
  isNew := isNew_openService
  moves moment := [
    Move.openSession 8, .authenticate 0 none, .step (.session 0), .handle 0 (.subscribe 7),
    .step (.session 0), .step (.session 0), .merge 7 .generated [pumpTag "Valve" "M0.1"],
    .step (.job 0), .handle 0 (.syncEdit (pumpEdit "Bool")), .wait 400, .step (.job 1),
    .step (.job 1), .step (.job 1), .handle 0 (.syncEdit (pumpEdit "Int")), .wait 400,
    .step (.job 2), .step (.job 2), .step (.job 2), .step (.job 2), .step (.job 0),
    .step (.job 0), .step (.job 2), .step (.job 1), .step (.job 1), .step (.job 1),
    .step (.job 2), .step (.job 2), .step (.job 2)].getD moment (.wait 0)

def heldPass (sync : Nat) (type : String) : Pass :=
  { sync, session := 0, token := sync - 1, edit := pumpEdit type }

theorem appliesInOrder_held : ∃ call tag row,
    heldRun.IsLast 28 call (heldPass 2 "Int") "pump" ∧ tag.dataType = .int16 ∧
      (heldRun.state 28).database.store.findRow? 7 "pump" = some row ∧ row.Carries tag := by
  have hcalls : (heldRun.calls 28).map (fun call => (call.number, call.project,
      call.batch.map Tag.key, call.returned.bind Except.toOption)) =
      [(0, 7, ["valve"], some { inserted := 1 }), (1, 7, ["pump"], some { inserted := 1 }),
        (2, 7, ["pump"], some { updated := 1 })] := by decide +kernel
  have hpasses : (heldRun.state 28).jobs.map Job.pass? =
      [none, some (heldPass 1 "Bool"), some (heldPass 2 "Int")] := by decide +kernel
  have htag : ((tagsOf (pumpEdit "Int")).reverse.find? (·.key == "pump")).map (·.dataType) =
      some .int16 := by decide +kernel
  obtain ⟨tag, htag, htype⟩ := Option.map_eq_some_iff.mp htag
  have hpass : ∀ call : MergeCall, (heldRun.state 28).passOf? call =
      [none, some (heldPass 1 "Bool"), some (heldPass 2 "Int")][call.number]?.join := by
    intro call
    rw [← hpasses, List.getElem?_map, passOf?]
    cases (heldRun.state 28).jobs[call.number]? <;> rfl
  -- Three calls have been made; the third is the one of the last edit.
  obtain ⟨first, rest, hlist, hfirst, hrest⟩ := List.map_eq_cons_iff.mp hcalls
  obtain ⟨second, rest, rfl, hsecond, hrest⟩ := List.map_eq_cons_iff.mp hrest
  obtain ⟨third, rest, rfl, hthird, hrest⟩ := List.map_eq_cons_iff.mp hrest
  obtain rfl := List.map_eq_nil_iff.mp hrest
  simp only [Prod.mk.injEq] at hfirst hsecond hthird
  have hlast : heldRun.IsLast 28 third (heldPass 2 "Int") "pump" := by
    constructor
    · rw [hlist]
      simp
    · rw [hpass, hthird.1]
      rfl
    · obtain ⟨result, hreturned, hresult⟩ := Option.bind_eq_some_iff.mp hthird.2.2.2
      exact ⟨{ updated := 1 }, by rw [hreturned, eq_ok_of_toOption hresult], by decide⟩
    · intro other hother hproject hkey hreported
      rw [hlist] at hother
      simp only [List.mem_cons, List.not_mem_nil, or_false] at hother
      rcases hother with rfl | rfl | rfl
      · rw [hfirst.2.2.1] at hkey
        simp at hkey
      · exact ⟨heldPass 1 "Bool", by rw [hpass, hsecond.1]; rfl, rfl, by decide⟩
      · exact ⟨heldPass 2 "Int", by rw [hpass, hthird.1]; rfl, rfl, Nat.le_refl 2⟩
    · intro earlier hlt database hmove
      interval_cases earlier <;> cases hmove
    · decide +kernel
  obtain ⟨row, hrow, hcarries⟩ := (heldRun.appliesInOrder 28).2 third _ "pump" tag hlast htag
  rw [hthird.2.1] at hrow
  exact ⟨third, tag, row, hlast, htype, hrow, hcarries⟩

end Run

end PlcTags.Service
