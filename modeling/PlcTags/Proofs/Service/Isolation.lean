import Mathlib.Data.List.Dedup
import PlcTags.Proofs.Service.Failing
import PlcTags.Proofs.Service.Merge
import PlcTags.Proofs.Store.Agreement
import PlcTags.Proofs.Store.Count
import PlcTags.Proofs.Store.Listing

/-!
# Failing writes

A tag whose write fails leaves no trace in the project: the merge goes on as if the tag
had not been in the batch (`takeAll_filter`).  A run with failing writes is therefore
mirrored by a run without failures whose batch lacks the tags that fail.  The two take
different stamps, so their stores are the same but for what is fresh in the rows that
were written (`Store.SameSince`).

What the report counts does not depend on failures either.  Each tag is counted exactly
once (`tally_takeAll`), a problem is noted for each tag whose key has been met before
(`duplicates_takeAll`), and the keys counted as new are those of the rows that have come
(`countP_projectRows`).
-/

namespace PlcTags

open Store (Row)

/-! ## Stores after the same writes -/

namespace Store

/-- What became of a place in two stores that began alike: nothing in both, or a write in
both, and then the rows differ in their stamps alone and go on to be the row that was there
before. -/
inductive SameAt (old : Option Row) : Option Row → Option Row → Prop
  | untouched : SameAt old old old
  | written {row other : Row} (unstamped : row.unstamped = other.unstamped)
      (keeps : ∀ before, old = some before → row.Keeps before ∧ other.Keeps before) :
      SameAt old (some row) (some other)

/-- Two stores that have come from one are the same, but for the stamps of what was
written since. -/
def SameSince (before store other : Store) : Prop :=
  ∀ project key, SameAt (before.findRow? project key) (store.findRow? project key)
    (other.findRow? project key)

theorem SameAt.map_unstamped {old row other : Option Row} (h : SameAt old row other) :
    row.map Row.unstamped = other.map Row.unstamped := by
  cases h with
  | untouched => rfl
  | written unstamped => exact congrArg some unstamped

/-- A row that was there before is still there. -/
theorem SameAt.keeps {before : Row} {row other : Option Row} (h : SameAt (some before) row other) :
    ∃ found twin, row = some found ∧ other = some twin ∧ found.Keeps before ∧
      twin.Keeps before := by
  cases h with
  | untouched => exact ⟨before, before, rfl, rfl, .refl before, .refl before⟩
  | written unstamped keeps =>
      obtain ⟨hfound, htwin⟩ := keeps before rfl
      exact ⟨_, _, rfl, rfl, hfound, htwin⟩

variable {before store other : Store}

theorem SameSince.refl (store : Store) : store.SameSince store store :=
  fun _ _ => .untouched

theorem SameSince.agreeOn (h : before.SameSince store other) (project : Int) :
    AgreeOn project store other :=
  fun key => (h project key).map_unstamped

/-- A write goes on with the row that it finds. -/
theorem keeps_written {project : Int} {tag : Tag} {row : Row}
    (h : store.findRow? project tag.key = some row) (stamp : Stamp) :
    (store.written stamp project tag).Keeps row := by
  rw [written, h]
  exact ⟨rfl, rfl, rfl, rfl⟩

/-- The same tag is written to both stores. -/
theorem SameSince.upsert (h : before.SameSince store other) (stamp twin : Stamp) (project : Int)
    (tag : Tag) :
    before.SameSince (store.upsert stamp project tag) (other.upsert twin project tag) := by
  intro place key
  by_cases hplace : place = project ∧ key = tag.key
  · obtain ⟨rfl, rfl⟩ := hplace
    rw [findRow?_upsert_self, findRow?_upsert_self]
    refine .written ((h.agreeOn place).written stamp twin tag) ?_
    intro old hold
    have hplace := h place tag.key
    rw [hold] at hplace
    obtain ⟨row, found, hrow, hfound, hrowKeeps, hfoundKeeps⟩ := hplace.keeps
    exact ⟨hrowKeeps.trans (keeps_written hrow stamp),
      hfoundKeeps.trans (keeps_written hfound twin)⟩
  · rw [findRow?_upsert_of_ne hplace, findRow?_upsert_of_ne hplace]
    exact h place key

end Store

/-! ## One tag -/

namespace Merge

variable {merge : Merge} {database : Database} {tag : Tag}

/-- A write that fails leaves the database as it is, and the merge knows what it knew. -/
theorem step_of_refused (merge : Merge) (h : (database.writeFailure? tag.name).isSome = true)
    (stamp : Stamp) : (merge.step stamp database tag).2 = database ∧
      (merge.step stamp database tag).1.known = merge.known := by
  have hgo := merge.stepGo stamp database tag
  generalize merge.step stamp database tag = result at hgo ⊢
  cases hgo with
  | keeps | fails => exact ⟨rfl, (merge.meet_frame tag).2.2⟩
  | writes hwrite haccepts =>
      rw [haccepts] at h
      cases h

/-- A write that succeeds is all that happens to the store, and the merge learns what the row
holds. -/
theorem step_of_accepted (hwrite : merge.needsWrite tag = true)
    (h : database.writeFailure? tag.name = none) (stamp : Stamp) :
    ∃ stored,
      (database.store.written stamp merge.project (merge.marked tag)).read = .ok stored ∧
      (merge.step stamp database tag).2.store =
        database.store.upsert stamp merge.project (merge.marked tag) ∧
      (merge.step stamp database tag).1.known = (tag.key, stored.tag) :: merge.known := by
  have hgo := merge.stepGo stamp database tag
  generalize merge.step stamp database tag = result at hgo ⊢
  cases hgo with
  | keeps hkept => cases hwrite.symm.trans hkept
  | fails _ hfails => cases h.symm.trans hfails
  | writes _ _ hread => exact ⟨_, hread, rfl, merge.known_wrote_ok tag _⟩

/-- Nothing but the store of a database changes. -/
theorem step_access (merge : Merge) (stamp : Stamp) (database : Database) (tag : Tag) :
    (merge.step stamp database tag).2.refusals = database.refusals ∧
      (merge.step stamp database tag).2.isOpen = database.isOpen := by
  have hgo := merge.stepGo stamp database tag
  generalize merge.step stamp database tag = result at hgo ⊢
  cases hgo with
  | keeps | fails | writes => exact ⟨rfl, rfl⟩

end Merge

/-! ## Two runs -/

namespace Database

/-- The database refuses to write tags of these names, and nothing else. -/
structure Refuses (database : Database) (names : List String) : Prop where
  is_open : database.isOpen = true
  refusals : database.refusals = { names }

variable {database : Database} {names : List String}

theorem Refuses.writeFailure? (h : database.Refuses names) (name : String) :
    database.writeFailure? name =
      if name ∈ names then some (.internal "write refused") else none := by
  rw [Database.writeFailure?, h.refusals, h.is_open]
  simp only [List.contains_iff_mem, if_true]

theorem Refuses.list_eq (h : database.Refuses names) (project : Int) :
    database.list project = database.store.list project := by
  rw [list, ifOpen, h.refusals, h.is_open]
  rfl

end Database

namespace MergeRun

variable {run calm : MergeRun} {before : Store} {tag : Tag} {names : List String}

/-- A run with failing writes, and the run that has not met the tags that fail. -/
structure Mirrors (before : Store) (run calm : MergeRun) : Prop where
  project : run.merge.project = calm.merge.project
  origin : run.merge.origin = calm.merge.origin
  known : run.merge.known = calm.merge.known
  stores : before.SameSince run.database.store calm.database.store

/-- One of the runs meets a tag whose write fails. -/
theorem Mirrors.refused (h : Mirrors before run calm)
    (hrefused : (run.database.writeFailure? tag.name).isSome = true) :
    Mirrors before (run.take tag) calm := by
  obtain ⟨hproject, horigin⟩ := run.take_frame tag
  obtain ⟨hdatabase, hknown⟩ :=
    run.merge.step_of_refused hrefused run.supply.stamp
  have hstore : (run.take tag).database = run.database := hdatabase
  exact ⟨hproject.trans h.project, horigin.trans h.origin, hknown.trans h.known,
    hstore ▸ h.stores⟩

/-- Both runs meet a tag whose write succeeds. -/
theorem Mirrors.accepted (h : Mirrors before run calm)
    (hrun : run.database.writeFailure? tag.name = none)
    (hcalm : calm.database.writeFailure? tag.name = none) :
    Mirrors before (run.take tag) (calm.take tag) := by
  obtain ⟨hproject, horigin⟩ := run.take_frame tag
  obtain ⟨hproject', horigin'⟩ := calm.take_frame tag
  have hmarked : calm.merge.marked tag = run.merge.marked tag := by
    rw [Merge.marked, Merge.marked, h.origin]
  have hneeds : calm.merge.needsWrite tag = run.merge.needsWrite tag := by
    rw [Merge.needsWrite, Merge.needsWrite, h.known]
  suffices hrest : (run.take tag).merge.known = (calm.take tag).merge.known ∧
      before.SameSince (run.take tag).database.store (calm.take tag).database.store from
    ⟨hproject.trans (h.project.trans hproject'.symm),
      horigin.trans (h.origin.trans horigin'.symm), hrest.1, hrest.2⟩
  cases hwrite : run.merge.needsWrite tag with
  | false =>
      rw [take, take, Merge.step_of_not_needsWrite hwrite,
        Merge.step_of_not_needsWrite (hneeds.trans hwrite)]
      refine ⟨?_, h.stores⟩
      exact (run.merge.meet_frame tag).2.2.trans
        (h.known.trans (calm.merge.meet_frame tag).2.2.symm)
  | true =>
      obtain ⟨stored, hread, hstore, hknown⟩ :=
        Merge.step_of_accepted hwrite hrun run.supply.stamp
      obtain ⟨twin, hread', hstore', hknown'⟩ :=
        Merge.step_of_accepted (hneeds.trans hwrite) hcalm calm.supply.stamp
      rw [hmarked, ← h.project] at hread' hstore'
      -- What is learned from a row does not depend on its stamps.
      have hunstamped := (h.stores.agreeOn run.merge.project).written run.supply.stamp
        calm.supply.stamp (run.merge.marked tag)
      have hread_eq := Store.read_unstamped
        (run.database.store.written run.supply.stamp run.merge.project (run.merge.marked tag))
      rw [hunstamped, Store.read_unstamped, hread, hread'] at hread_eq
      have htag : twin.tag = stored.tag := Except.ok.inj hread_eq
      have hstores := h.stores.upsert run.supply.stamp calm.supply.stamp run.merge.project
        (run.merge.marked tag)
      rw [← hstore, ← hstore'] at hstores
      refine ⟨?_, hstores⟩
      calc (run.take tag).merge.known = (tag.key, stored.tag) :: run.merge.known := hknown
        _ = (tag.key, twin.tag) :: calm.merge.known := by rw [htag, h.known]
        _ = (calm.take tag).merge.known := hknown'.symm

theorem refuses_take (h : run.database.Refuses names) (tag : Tag) :
    (run.take tag).database.Refuses names := by
  obtain ⟨hrefusals, hopen⟩ := run.merge.step_access run.supply.stamp run.database tag
  exact ⟨hopen.trans h.is_open, hrefusals.trans h.refusals⟩

/-- **A tag whose write fails leaves no trace**: without it the batch comes to the same. -/
theorem takeAll_filter (batch : List Tag) (h : Mirrors before run calm)
    (hrun : run.database.Refuses names) (hcalm : calm.database.Refuses []) :
    Mirrors before (run.takeAll batch)
      (calm.takeAll (batch.filter fun tag => tag.name ∉ names)) := by
  induction batch generalizing run calm with
  | nil => exact h
  | cons tag rest ih =>
      by_cases hname : tag.name ∈ names
      · have hrefused : (run.database.writeFailure? tag.name).isSome = true := by
          rw [hrun.writeFailure?, if_pos hname]
          rfl
        rw [List.filter_cons_of_neg (by simpa using hname)]
        exact ih (h.refused hrefused) (refuses_take hrun tag) hcalm
      · have haccepted : run.database.writeFailure? tag.name = none := by
          rw [hrun.writeFailure?, if_neg hname]
        have haccepted' : calm.database.writeFailure? tag.name = none := by
          rw [hcalm.writeFailure?, if_neg List.not_mem_nil]
        rw [List.filter_cons_of_pos (by simpa using hname)]
        exact ih (h.accepted haccepted haccepted') (refuses_take hrun tag)
          (refuses_take hcalm tag)

end MergeRun

/-! ## Counts -/

namespace MergeReport

/-- How many tags the report has counted, those whose writes have failed among them. -/
def tally (report : MergeReport) : Nat :=
  report.inserted + report.updated + report.unchanged +
    report.errors.countP (·.code == .storeConflict)

/-- How many problems with repeated names the report has. -/
def duplicates (report : MergeReport) : Nat :=
  report.errors.countP (·.code == .duplicateName)

end MergeReport

namespace Merge

variable {merge : Merge} {tag : Tag}

theorem tally_note (merge : Merge) (problem : Diagnostic) :
    (merge.note problem).report.tally =
      merge.report.tally + if problem.code = .storeConflict then 1 else 0 := by
  simp [note, MergeReport.tally, List.countP_append, List.countP_singleton, Nat.add_assoc]

theorem duplicates_note (merge : Merge) (problem : Diagnostic) :
    (merge.note problem).report.duplicates =
      merge.report.duplicates + if problem.code = .duplicateName then 1 else 0 := by
  simp [note, MergeReport.duplicates, List.countP_append, List.countP_singleton]

theorem tally_meet (merge : Merge) (tag : Tag) :
    (merge.meet tag).report.tally = merge.report.tally := by
  unfold meet
  split
  · exact (merge.tally_note (duplicate tag.name)).trans (by simp [duplicate])
  · rfl

theorem duplicates_meet (merge : Merge) (tag : Tag) :
    (merge.meet tag).report.duplicates =
      merge.report.duplicates + if tag.key ∈ merge.met then 1 else 0 := by
  unfold meet
  split
  · exact (merge.duplicates_note (duplicate tag.name)).trans (by simp [duplicate])
  · rfl

theorem tally_wrote (merge : Merge) (tag : Tag) (answer : Except Failure StoredTag) :
    (merge.wrote tag answer).report.tally = merge.report.tally + 1 := by
  cases answer with
  | error failure => exact (merge.tally_note _).trans (by simp [conflict])
  | ok stored =>
      simp only [wrote, learn, countWritten, MergeReport.tally]
      split <;> simp only <;> omega

theorem duplicates_wrote (merge : Merge) (tag : Tag) (answer : Except Failure StoredTag) :
    (merge.wrote tag answer).report.duplicates = merge.report.duplicates := by
  cases answer with
  | error failure => exact (merge.duplicates_note _).trans (by simp [conflict])
  | ok stored =>
      simp only [wrote, learn, MergeReport.duplicates]
      rw [countWritten_errors]

theorem tally_countUnchanged (merge : Merge) :
    merge.countUnchanged.report.tally = merge.report.tally + 1 := by
  simp only [countUnchanged, MergeReport.tally]
  omega

/-- Every tag is counted once, however it goes. -/
theorem tally_step (stamp : Stamp) (database : Database) (tag : Tag) :
    (merge.step stamp database tag).1.report.tally = merge.report.tally + 1 := by
  cases hwrite : merge.needsWrite tag with
  | false => rw [step_of_not_needsWrite hwrite, tally_countUnchanged, tally_meet]
  | true => rw [step_of_needsWrite hwrite, tally_wrote, tally_meet]

theorem met_step (stamp : Stamp) (database : Database) (tag : Tag) :
    (merge.step stamp database tag).1.met = tag.key :: merge.met := by
  have hgo := merge.stepGo stamp database tag
  generalize merge.step stamp database tag = result at hgo ⊢
  cases hgo with
  | keeps | fails | writes => rfl

theorem duplicates_step (stamp : Stamp) (database : Database) (tag : Tag) :
    (merge.step stamp database tag).1.report.duplicates =
      merge.report.duplicates + if tag.key ∈ merge.met then 1 else 0 := by
  cases hwrite : merge.needsWrite tag with
  | false =>
      rw [step_of_not_needsWrite hwrite]
      exact merge.duplicates_meet tag
  | true => rw [step_of_needsWrite hwrite, duplicates_wrote, duplicates_meet]

end Merge

namespace MergeRun

variable {run : MergeRun} {batch : List Tag}

theorem tally_takeAll (run : MergeRun) (batch : List Tag) :
    (run.takeAll batch).merge.report.tally = run.merge.report.tally + batch.length := by
  induction batch generalizing run with
  | nil => rfl
  | cons tag rest ih =>
      calc ((run.take tag).takeAll rest).merge.report.tally
          = (run.take tag).merge.report.tally + rest.length := ih (run.take tag)
        _ = run.merge.report.tally + 1 + rest.length := by rw [take, Merge.tally_step]
        _ = run.merge.report.tally + (tag :: rest).length := by rw [List.length_cons]; omega

theorem met_takeAll (run : MergeRun) (batch : List Tag) :
    (run.takeAll batch).merge.met = (batch.map Tag.key).reverse ++ run.merge.met := by
  induction batch generalizing run with
  | nil => rfl
  | cons tag rest ih =>
      calc ((run.take tag).takeAll rest).merge.met
          = (rest.map Tag.key).reverse ++ (run.take tag).merge.met := ih (run.take tag)
        _ = (rest.map Tag.key).reverse ++ (tag.key :: run.merge.met) := by
            rw [take, Merge.met_step]
        _ = ((tag :: rest).map Tag.key).reverse ++ run.merge.met := by simp

/-- Of the keys that have been met, those that were met again have been noted. -/
theorem duplicates_takeAll (batch : List Tag)
    (h : run.merge.report.duplicates + run.merge.met.dedup.length = run.merge.met.length) :
    (run.takeAll batch).merge.report.duplicates + (run.takeAll batch).merge.met.dedup.length =
      (run.takeAll batch).merge.met.length := by
  induction batch generalizing run with
  | nil => exact h
  | cons tag rest ih =>
      refine ih ?_
      rw [take, Merge.duplicates_step, Merge.met_step]
      by_cases hmet : tag.key ∈ run.merge.met
      · rw [if_pos hmet, List.dedup_cons_of_mem hmet, List.length_cons]
        omega
      · rw [if_neg hmet, List.dedup_cons_of_notMem hmet, List.length_cons, List.length_cons]
        omega

/-- The keys that a run counts as new have come with a row. -/
theorem gains_takeAll (batch : List Tag) {first : Store} {keys : List String}
    (hknows : run.merge.Knows run.database.store)
    (hgains : first.Gains run.merge.project keys run.database.store)
    (hcount : run.merge.report.inserted = keys.length) :
    ∃ gained, first.Gains run.merge.project gained (run.takeAll batch).database.store ∧
      (run.takeAll batch).merge.report.inserted = gained.length := by
  induction batch generalizing run keys with
  | nil => exact ⟨keys, hgains, hcount⟩
  | cons tag rest ih =>
      have hproject := (run.take_frame tag).1
      have hknows' : (run.take tag).merge.Knows (run.take tag).database.store :=
        hknows.step run.supply.stamp tag
      rw [← hproject] at hgains ⊢
      rcases Merge.inserts_or_none hknows run.supply.stamp tag with hinserts | hnone
      · refine @ih _ (keys ++ [tag.key]) hknows' ?_ ?_
        · rw [hproject] at hgains ⊢
          exact hgains.inserts hinserts
        · rw [List.length_append, List.length_singleton, ← hcount]
          exact hinserts.counted
      · refine @ih _ keys hknows' ?_ (hnone.counted.trans hcount)
        rw [hproject] at hgains ⊢
        exact hgains.congr hnone.present

end MergeRun

/-- The rows of a project that were not there before are those of the keys that have come. -/
theorem Store.Gains.countP_projectRows {first store : Store} {project : Int}
    {keys : List String} (h : first.Gains project keys store) :
    (store.projectRows project).countP (fun row => (first.findRow? project row.key).isNone) =
      keys.length := by
  rw [List.countP_eq_length_filter, ← List.length_map Row.key]
  refine List.Perm.length_eq ((List.perm_ext_iff_of_nodup ?_ h.nodup).mpr ?_)
  · exact List.pairwise_map.mpr ((store.pairwise_ne_projectRows project).filter _)
  · intro key
    rw [h.mem_iff, List.mem_map]
    constructor
    · rintro ⟨row, hrow, rfl⟩
      obtain ⟨hmem, hnone⟩ := List.mem_filter.mp hrow
      refine ⟨Option.isNone_iff_eq_none.mp hnone, ?_⟩
      rw [Store.mem_projectRows_iff.mp hmem]
      rfl
    · rintro ⟨hnone, hsome⟩
      obtain ⟨row, hrow⟩ := Option.isSome_iff_exists.mp hsome
      have hkey := (Store.findRow?_eq_some_iff.mp hrow).2.2
      refine ⟨row, List.mem_filter.mpr ⟨?_, ?_⟩, hkey⟩
      · rw [Store.mem_projectRows_iff, hkey, hrow]
      · rw [hkey, hnone]
        rfl

/-- The report of a merge counts what has become of its batch. -/
structure MergeReport.Counts (report : MergeReport) (project : Int) (batch : List Tag)
    (before after : Store) : Prop where
  inserted : report.inserted =
    (after.projectRows project).countP fun row => (before.findRow? project row.key).isNone
  total : report.inserted + report.updated + report.unchanged +
    report.errors.countP (·.code == .storeConflict) = batch.length
  duplicates : report.errors.countP (·.code == .duplicateName) =
    batch.length - (batch.map Tag.key).dedup.length

/-- A merge counts rightly whatever the database refuses. -/
theorem MergeRun.counts {database : Database} {project : Int} {listed : List StoredTag}
    (hlisted : database.store.list project = .ok listed) (origin : Origin) (supply : Supply)
    (batch : List Tag) :
    (takeAll ⟨.start project origin listed, database, supply⟩ batch).merge.report.Counts project
      batch database.store
      (takeAll ⟨.start project origin listed, database, supply⟩ batch).database.store := by
  let run : MergeRun := ⟨.start project origin listed, database, supply⟩
  constructor
  · obtain ⟨keys, hgains, hcount⟩ := run.gains_takeAll batch
      (Merge.knows_start hlisted origin) (Store.Gains.nil database.store project) rfl
    exact hcount.trans hgains.countP_projectRows.symm
  · exact (run.tally_takeAll batch).trans (Nat.zero_add _)
  · have hdistinct := run.duplicates_takeAll batch rfl
    rw [run.met_takeAll, show run.merge.met = [] from rfl, List.append_nil,
      ((List.reverse_perm (batch.map Tag.key)).dedup).length_eq, List.length_reverse,
      List.length_map] at hdistinct
    exact Nat.eq_sub_of_add_eq hdistinct

namespace Service

open Live

variable {service calm : Service} {number place : Nat} {job twin : Job} {origin : Origin}
  {batch : List Tag} {diagnostics remarks : List Diagnostic} {names : List String}

/-! ## Jobs -/

/-- It is the turn of a job to merge a batch. -/
structure IsNext (service : Service) (number : Nat) (job : Job) (origin : Origin)
    (batch : List Tag) (diagnostics : List Diagnostic) : Prop where
  found : service.jobs[number]? = some job
  stage : job.stage = .queued origin batch diagnostics
  turn : service.merges.isHeldBy job.project (.job number) = true

/-- The job merges its batch to the end, and this is the report. -/
structure Merges (service : Service) (number : Nat) (job : Job) (batch : List Tag)
    (diagnostics : List Diagnostic) (report : MergeReport) (after : Service) : Prop where
  steps : service.jobSteps? number (batch.length + 2) = some after
  ended : after.jobs[number]? =
    some { job with stage := stageAfterMerge job.purpose report diagnostics }

/-- What a job merges is what the run of its merge takes. -/
theorem IsNext.merges (h : service.IsNext number job origin batch diagnostics)
    {listed : List StoredTag} (hlisted : service.database.list job.project = .ok listed) :
    let run : MergeRun :=
      ⟨.start job.project origin listed, service.database, service.supply⟩
    ∃ after, service.Merges number job batch diagnostics (run.takeAll batch).merge.report after ∧
      after.database = (run.takeAll batch).database := by
  intro run
  obtain ⟨first, hfirst, hstarted⟩ := isMerging_of_queued h.found h.stage h.turn hlisted
  obtain ⟨last, hsteps, htaken⟩ := isMerging_jobSteps? hstarted
  obtain ⟨after, hend, hafter, hdatabase⟩ := jobStep?_of_isMerging_nil htaken
  refine ⟨after, ⟨?_, hafter⟩, hdatabase⟩
  rw [jobSteps?_succ hfirst, jobSteps?_add hsteps, jobSteps?_succ hend]
  rfl

/-- A job that cannot read its project changes nothing in the database. -/
theorem IsNext.unlisted (h : service.IsNext number job origin batch diagnostics)
    {failure : Failure} (hfails : service.database.list job.project = .error failure) :
    ∃ after, service.jobStep? number = some after ∧ after.database = service.database := by
  refine ⟨{ service with
    merges := service.merges.release job.project (.job number) }.failMerge number job failure,
    ?_, (leavesAlone_failMerge _ number job failure).database⟩
  rw [jobStep?, h.found]
  simp only [Option.bind_eq_bind, Option.bind_some, h.stage, h.turn, if_true, loadForMerge,
    hfails]
  rfl

/-- **Failing writes are isolated and counted.**  A merge some of whose writes fail leaves
the store that the rest of its batch leaves where no write fails, but for the stamps of what
was written, and its report counts every tag, every new row and every repeated name.  If the
project cannot be read, neither merge changes anything. -/
theorem isolates (h : service.IsNext number job origin batch diagnostics)
    (hrefuses : service.database.Refuses names)
    (hcalm : calm.IsNext place twin origin (batch.filter fun tag => tag.name ∉ names) remarks)
    (hworks : calm.database.Works) (hproject : twin.project = job.project)
    (hstore : calm.database.store = service.database.store) :
    (∃ failure after calmAfter, service.database.list job.project = .error failure ∧
      service.jobStep? number = some after ∧ calm.jobStep? place = some calmAfter ∧
      after.database.store = service.database.store ∧
      calmAfter.database.store = service.database.store) ∨
    ∃ report after calmReport calmAfter,
      service.Merges number job batch diagnostics report after ∧
      calm.Merges place twin (batch.filter fun tag => tag.name ∉ names) remarks calmReport
        calmAfter ∧
      service.database.store.SameSince after.database.store calmAfter.database.store ∧
      report.Counts job.project batch service.database.store after.database.store := by
  have hlist : calm.database.list twin.project = service.database.list job.project := by
    rw [hworks.list_eq, hrefuses.list_eq, hstore, hproject]
  cases hlisted : service.database.list job.project with
  | error failure =>
      obtain ⟨after, hstep, hdatabase⟩ := h.unlisted hlisted
      obtain ⟨calmAfter, hcalmStep, hcalmDatabase⟩ := hcalm.unlisted (hlist.trans hlisted)
      refine .inl ⟨failure, after, calmAfter, rfl, hstep, hcalmStep, ?_, ?_⟩
      · rw [hdatabase]
      · rw [hcalmDatabase, hstore]
  | ok listed =>
      obtain ⟨after, hmerges, hdatabase⟩ := h.merges hlisted
      obtain ⟨calmAfter, hcalmMerges, hcalmDatabase⟩ := hcalm.merges (hlist.trans hlisted)
      -- Both merges start from the same store and know the same rows.
      have hstart : MergeRun.Mirrors service.database.store
          ⟨.start job.project origin listed, service.database, service.supply⟩
          ⟨.start twin.project origin listed, calm.database, calm.supply⟩ :=
        ⟨hproject.symm, rfl, rfl, hstore ▸ .refl calm.database.store⟩
      have hmirrors := MergeRun.takeAll_filter batch hstart hrefuses
        ⟨hworks.is_open, hworks.refusals⟩
      refine .inr ⟨_, after, _, calmAfter, hmerges, hcalmMerges, ?_, ?_⟩
      · rw [hdatabase, hcalmDatabase]
        exact hmirrors.stores
      · rw [hdatabase]
        exact MergeRun.counts (Database.list_eq_ok hlisted) origin service.supply batch

/-- A batch with two spellings of one name. -/
def pumpsAndValve : List Tag :=
  [pumpTag "Pump" "M0.0", pumpTag "Valve" "M0.1", pumpTag "PUMP" "M0.2"]

/-- A merge of a batch into a project with one tag. -/
def mergeJob (batch : List Tag) : Job where
  project := 7
  purpose := .merge
  stage := .queued .generated batch []

/-- A service whose database refuses these names, and that is about to merge a batch. -/
def mergeService (names : List String) (batch : List Tag) : Service where
  settings := {}
  database :=
    { store := pumpService.database.store
      refusals := { names } }
  events := { capacity := 1 }
  jobs := [mergeJob batch]
  merges := ⟨[(7, .job 0)]⟩

theorem isNext_mergeService (names : List String) (batch : List Tag) :
    (mergeService names batch).IsNext 0 (mergeJob batch) .generated batch [] :=
  ⟨rfl, rfl, rfl⟩

/-- The write of one spelling fails, and that of the other one does not. -/
theorem isolates_pump :
    let service := mergeService ["Pump"] pumpsAndValve
    let calm := mergeService [] pumpsAndValve.tail
    service.database.Refuses ["Pump"] ∧ calm.database.Works ∧
      calm.database.store = service.database.store ∧
      ∃ report after calmReport calmAfter,
        service.Merges 0 (mergeJob pumpsAndValve) pumpsAndValve [] report after ∧
        calm.Merges 0 (mergeJob pumpsAndValve.tail) pumpsAndValve.tail [] calmReport calmAfter ∧
        service.database.store.SameSince after.database.store calmAfter.database.store ∧
        report.Counts 7 pumpsAndValve service.database.store after.database.store := by
  intro service calm
  have hrefuses : service.database.Refuses ["Pump"] := ⟨rfl, rfl⟩
  have hworks : calm.database.Works := ⟨rfl, rfl⟩
  have hfilter : pumpsAndValve.filter (fun tag => tag.name ∉ ["Pump"]) = pumpsAndValve.tail := by
    decide
  have hcalm : calm.IsNext 0 (mergeJob pumpsAndValve.tail) .generated
      (pumpsAndValve.filter fun tag => tag.name ∉ ["Pump"]) [] := by
    rw [hfilter]
    exact isNext_mergeService [] pumpsAndValve.tail
  have hlisted : ∃ listed, service.database.list 7 = .ok listed := by
    rw [hrefuses.list_eq]
    refine Store.exists_list fun row hrow => ?_
    obtain rfl := List.mem_singleton.mp hrow
    exact ⟨_, Store.read_ofTag (Supply.stamp {}) 7 (pumpTag "Pump" "")⟩
  refine ⟨hrefuses, hworks, rfl, ?_⟩
  rcases isolates (isNext_mergeService ["Pump"] pumpsAndValve) hrefuses hcalm hworks rfl rfl with
    ⟨failure, after, calmAfter, hfails, -⟩ | hisolated
  · obtain ⟨listed, hlisted⟩ := hlisted
    cases hlisted.symm.trans hfails
  · rw [hfilter] at hisolated
    exact hisolated

end Service

end PlcTags
