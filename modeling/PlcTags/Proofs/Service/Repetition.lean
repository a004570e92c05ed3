import PlcTags.Proofs.Service.Isolation

/-!
# Merging a batch again

What a merge compares of a tag is what a write of the tag writes, and what it reads back
is what was written.  So a batch that is merged a second time finds its tags stored: if no
key stands in it twice, all of them count as unchanged and the store stays as it is
(`MergeRun.takeAll_of_carried`).

Where several tags share a key, the second merge writes again what the first one wrote,
and ends with the same tag.  A place of the store is either left alone, because its row
carries all tags of its key, or it ends with a row that holds what was written last
(`Store.Leaves`).  Both merges come to the same at every place, so all that can differ is
the time of the last write (`Store.untimed_again`).
-/

namespace PlcTags

open Store (Row)

/-! ## What a row holds -/

namespace Store

/-- A row without the time of its last write. -/
def Row.untimed (row : Row) : Row :=
  { row with updatedAt := (Supply.stamp {}).time }

/-- A write of the tag would change no more of the row than its time. -/
def Row.Holds (row : Row) (tag : Tag) : Prop :=
  row.update row.updatedAt tag = row

variable {store before after : Store} {project : Int} {key : String} {row later : Row}
  {tag other : Tag}

theorem holds_written (store : Store) (stamp : Stamp) (project : Int) (tag : Tag) :
    (store.written stamp project tag).Holds tag := by
  unfold written
  split <;> rfl

/-- Tags that a write of one over the other would not change are written alike. -/
theorem update_congr (h : Merge.SameFields tag other) (row : Row) (time : Instant) :
    row.update time tag = row.update time other := by
  obtain ⟨hdataType, haddress, hscope, hcategory, hdefault, hdescription, hvendor⟩ := h
  simp only [Row.update, hdataType, haddress, hscope, hcategory, hdefault, hdescription, hvendor]

theorem Row.Holds.congr (h : row.Holds tag) (hsame : Merge.SameFields tag other) :
    row.Holds other :=
  (update_congr hsame row row.updatedAt).symm.trans h

theorem Row.Holds.carries (h : row.Holds tag) : row.Carries tag := by
  rw [← h]
  exact ⟨_, read_update row row.updatedAt tag, rfl, rfl, rfl, rfl, rfl, rfl, rfl⟩

theorem sameFields_of_carries (h : row.Carries tag) (h' : row.Carries other) :
    Merge.SameFields tag other := by
  obtain ⟨stored, hread, hdataType, haddress, hscope, hcategory, hdefault, hdescription,
    hvendor⟩ := h
  obtain ⟨same, hsame, hsameFields⟩ := h'
  obtain rfl := Except.ok.inj (hread.symm.trans hsame)
  rwa [Merge.SameFields, hdataType, haddress, hscope, hcategory, hdefault, hdescription,
    hvendor] at hsameFields

/-- A row that goes on to be the same tag, and holds the same, is the same but for its
time. -/
theorem Row.Keeps.untimed_eq (h : later.Keeps row) (hplace : later.SamePlace row)
    (hlater : later.Holds tag) (hrow : row.Holds tag) : later.untimed = row.untimed := by
  rw [← hlater, ← hrow]
  simp only [Row.untimed, Row.update, h.id, h.name, h.createdAt, h.isGenerated, hplace.1,
    hplace.2]

/-! ## What a batch leaves at a place -/

/-- Whatever a batch has to say to a place, the row there carries it. -/
def IsCarried (batch : List Tag) (key : String) (old : Option Row) : Prop :=
  ∀ tag ∈ batch, tag.key = key → ∃ row, old = some row ∧ row.Carries tag

/-- What a batch makes of a place: nothing, if the row there carries all tags of its key,
and otherwise a row that has been written. -/
structure Leaves (batch : List Tag) (key : String) (old new : Option Row) : Prop where
  untouched : IsCarried batch key old → new = old
  written : ¬ IsCarried batch key old → ∃ row tag, new = some row ∧ row.Holds tag

variable {batch rest : List Tag} {old middle new : Option Row}

theorem isCarried_cons : IsCarried (tag :: rest) key old ↔
    (tag.key = key → ∃ row, old = some row ∧ row.Carries tag) ∧ IsCarried rest key old :=
  List.forall_mem_cons

theorem Leaves.cons (h : Leaves [tag] key old middle) (hrest : Leaves rest key middle new) :
    Leaves (tag :: rest) key old new where
  untouched hcarried := by
    obtain ⟨hfirst, hothers⟩ := isCarried_cons.mp hcarried
    have hmiddle := h.untouched (isCarried_cons.mpr ⟨hfirst, List.forall_mem_nil _⟩)
    rw [hmiddle] at hrest
    exact hrest.untouched hothers
  written hcarried := by
    by_cases hothers : IsCarried rest key middle
    · -- The rest of the batch leaves alone what its first tag has written.
      rw [hrest.untouched hothers]
      refine h.written fun hfirst => ?_
      have hmiddle := h.untouched hfirst
      rw [hmiddle] at hothers
      exact hcarried (isCarried_cons.mpr ⟨(isCarried_cons.mp hfirst).1, hothers⟩)
    · exact hrest.written hothers

end Store

/-! ## The merge -/

namespace Merge

variable {merge : Merge} {store : Store} {database : Database} {row : Row} {tag : Tag}

/-- A tag that the row of its key carries is not written. -/
theorem Knows.needsWrite_eq_false (h : merge.Knows store)
    (hrow : store.findRow? merge.project tag.key = some row) (hcarries : row.Carries tag) :
    merge.needsWrite tag = false := by
  obtain ⟨stored, hread, hlookup⟩ := h.of_row hrow
  obtain ⟨same, hsame, hfields⟩ := hcarries
  obtain rfl := Except.ok.inj (hread.symm.trans hsame)
  rw [needsWrite, hlookup]
  simpa using hfields

/-- One tag leaves its place alone if the row there carries it, and writes it otherwise. -/
theorem Knows.leaves_step (h : merge.Knows database.store) (hworks : database.Works)
    (stamp : Stamp) (tag : Tag) (key : String) :
    Store.Leaves [tag] key (database.store.findRow? merge.project key)
      ((merge.step stamp database tag).2.store.findRow? merge.project key) := by
  by_cases hkey : tag.key = key
  · subst hkey
    cases hwrite : merge.needsWrite tag with
    | false =>
        obtain ⟨row, stored, hrow, hread, hsame⟩ := h.sameFields hwrite
        rw [step_of_not_needsWrite hwrite]
        refine ⟨fun _ => rfl, fun hcarried => absurd ?_ hcarried⟩
        exact List.forall_mem_singleton.mpr fun _ => ⟨row, hrow, stored, hread, hsame⟩
    | true =>
        obtain ⟨-, -, hstore, -⟩ :=
          step_of_accepted hwrite (hworks.writeFailure?_eq_none tag.name) stamp
        have hself : (merge.step stamp database tag).2.store.findRow? merge.project tag.key =
            some (database.store.written stamp merge.project (merge.marked tag)) := by
          rw [hstore]
          exact Store.findRow?_upsert_self ..
        rw [hself]
        constructor
        · intro hcarried
          obtain ⟨row, hrow, hcarries⟩ := hcarried tag List.mem_cons_self rfl
          -- A row that carries the tag would not be written.
          rw [h.needsWrite_eq_false hrow hcarries] at hwrite
          cases hwrite
        · exact fun _ => ⟨_, merge.marked tag, rfl, Store.holds_written ..⟩
  · have hsame : (merge.step stamp database tag).2.store.findRow? merge.project key =
        database.store.findRow? merge.project key :=
      ((h.at_key key).step_of_ne (Ne.symm hkey) stamp).1
    rw [hsame]
    refine ⟨fun _ => rfl, fun hcarried => absurd ?_ hcarried⟩
    exact List.forall_mem_singleton.mpr fun hself => absurd hself hkey

/-- A project whose rows a merge knows can be listed. -/
theorem Knows.exists_list (h : merge.Knows store) :
    ∃ stored, store.list merge.project = .ok stored := by
  refine Store.exists_list_of_projectRows fun row hrow => ?_
  obtain ⟨listed, hread, -⟩ := h.of_row (Store.mem_projectRows_iff.mp hrow)
  exact ⟨listed, hread⟩

theorem succeeds_meet (merge : Merge) (tag : Tag) :
    (merge.meet tag).Succeeds ↔ merge.Succeeds := by
  refine ⟨succeeds_of_meet, fun h => ?_⟩
  unfold meet
  split
  · exact succeeds_note.mpr ⟨h, fun hcode => by cases hcode⟩
  · exact h

/-- In a database without failures no write of the merge fails. -/
theorem Succeeds.step (h : merge.Succeeds) (hworks : database.Works) (stamp : Stamp)
    (tag : Tag) : (merge.step stamp database tag).1.Succeeds := by
  have hmet := (merge.succeeds_meet tag).mpr h
  have hgo := merge.stepGo stamp database tag
  generalize merge.step stamp database tag = result at hgo ⊢
  cases hgo with
  | keeps => exact hmet
  | fails hwrite hfails => cases (hworks.writeFailure?_eq_none _).symm.trans hfails
  | writes =>
      intro problem hproblem
      refine hmet problem ?_
      rwa [← countWritten_errors]

end Merge

namespace MergeRun

variable {run : MergeRun} {batch : List Tag}

theorem works_take (h : run.database.Works) (tag : Tag) : (run.take tag).database.Works := by
  obtain ⟨hrefusals, hopen⟩ := run.merge.step_access run.supply.stamp run.database tag
  exact ⟨hopen.trans h.is_open, hrefusals.trans h.refusals⟩

theorem succeeds_takeAll (h : run.merge.Succeeds) (hworks : run.database.Works)
    (batch : List Tag) : (run.takeAll batch).merge.Succeeds := by
  induction batch generalizing run with
  | nil => exact h
  | cons tag rest ih => exact ih (h.step hworks run.supply.stamp tag) (works_take hworks tag)

theorem knows_takeAll (h : run.merge.Knows run.database.store) (batch : List Tag) :
    (run.takeAll batch).merge.project = run.merge.project ∧
      (run.takeAll batch).merge.Knows (run.takeAll batch).database.store := by
  induction batch generalizing run with
  | nil => exact ⟨rfl, h⟩
  | cons tag rest ih =>
      obtain ⟨hproject, hknows⟩ := @ih (run.take tag) (h.step run.supply.stamp tag)
      exact ⟨hproject.trans (run.take_frame tag).1, hknows⟩

theorem leaves_takeAll (h : run.merge.Knows run.database.store) (hworks : run.database.Works)
    (batch : List Tag) (key : String) :
    Store.Leaves batch key (run.database.store.findRow? run.merge.project key)
      ((run.takeAll batch).database.store.findRow? run.merge.project key) := by
  induction batch generalizing run with
  | nil => exact ⟨fun _ => rfl, fun hcarried => absurd (List.forall_mem_nil _) hcarried⟩
  | cons tag rest ih =>
      have hrest := ih (h.step run.supply.stamp tag) (works_take hworks tag)
      rw [(run.take_frame tag).1] at hrest
      exact (h.leaves_step hworks run.supply.stamp tag key).cons hrest

/-- **Tags that are all carried by their rows are left alone**, if no key comes twice. -/
theorem takeAll_of_carried (h : run.merge.Knows run.database.store) (hfresh : run.IsFresh batch)
    (hcarried : ∀ tag ∈ batch, ∃ row,
      run.database.store.findRow? run.merge.project tag.key = some row ∧ row.Carries tag) :
    (run.takeAll batch).merge.report =
        { run.merge.report with unchanged := run.merge.report.unchanged + batch.length } ∧
      (run.takeAll batch).database = run.database := by
  refine takeAll_of_stored hfresh fun tag htag => ?_
  obtain ⟨row, hrow, hcarries⟩ := hcarried tag htag
  exact h.needsWrite_eq_false hrow hcarries

end MergeRun

/-! ## Stores after one and after two merges -/

namespace Store

variable {first second third : Store} {project : Int} {origin source : Origin}
  {batch : List Tag}

/-- What two merges of a batch make of a store, place by place. -/
structure Absorbs (before : Store) (project : Int) (origin : Origin) (batch : List Tag)
    (after : Store) : Prop where
  takes : before.TakesAll project origin batch after
  leaves : ∀ key, Leaves batch key (before.findRow? project key) (after.findRow? project key)

/-- A place that has been written holds the last tag of its key. -/
theorem Absorbs.exists_holds (h : first.Absorbs project origin batch second) {key : String}
    {last : Tag} (hlast : batch.reverse.find? (·.key == key) = some last)
    (hcarried : ¬ IsCarried batch key (first.findRow? project key)) :
    ∃ row, second.findRow? project key = some row ∧ row.Holds last := by
  obtain ⟨row, written, hrow, hholds⟩ := (h.leaves key).written hcarried
  obtain ⟨same, hsame, hcarries⟩ := h.takes.carried hlast
  obtain rfl := Option.some.inj (hrow.symm.trans hsame)
  exact ⟨row, hrow, hholds.congr (sameFields_of_carries hholds.carries hcarries)⟩

/-- A place that both merges write ends with the same tag both times. -/
theorem untimed_again_at (h : first.Absorbs project origin batch second)
    (h' : second.Absorbs project source batch third) (key : String) :
    (third.findRow? project key).map Row.untimed =
      (second.findRow? project key).map Row.untimed := by
  by_cases hagain : IsCarried batch key (second.findRow? project key)
  · rw [(h'.leaves key).untouched hagain]
  · -- What the second merge had to write the first one had to write too.
    have hfirst : ¬ IsCarried batch key (first.findRow? project key) := by
      intro hcarried
      rw [(h.leaves key).untouched hcarried] at hagain
      exact hagain hcarried
    have hkey : key ∈ batch.reverse.map Tag.key := by
      refine Decidable.byContradiction fun hkey => hagain fun tag htag hself => ?_
      exact absurd (List.mem_map.mpr ⟨tag, List.mem_reverse.mpr htag, hself⟩) hkey
    obtain ⟨last, hlast⟩ := exists_find?_key hkey
    obtain ⟨row, hrow, hholds⟩ := h.exists_holds hlast hfirst
    obtain ⟨later, hlater, hlaterHolds⟩ := h'.exists_holds hlast hagain
    obtain ⟨same, hsame, hkeeps⟩ := h'.takes.kept hrow
    obtain rfl := Option.some.inj (hlater.symm.trans hsame)
    obtain ⟨-, hproject, hself⟩ := findRow?_eq_some_iff.mp hrow
    obtain ⟨-, hlaterProject, hlaterSelf⟩ := findRow?_eq_some_iff.mp hlater
    have hplace : later.SamePlace row :=
      ⟨hlaterProject.trans hproject.symm, hlaterSelf.trans hself.symm⟩
    rw [hlater, hrow, Option.map_some, Option.map_some,
      hkeeps.untimed_eq hplace hlaterHolds hholds]

/-- The rows of a store are told apart by their places, so two stores with the same rows at
every place have the same rows. -/
theorem map_untimed_eq {store other : Store}
    (h : ∀ project key, (store.findRow? project key).map Row.untimed =
      (other.findRow? project key).map Row.untimed) :
    store.rows.map Row.untimed = other.rows.map Row.untimed := by
  have hsorted : ∀ store : Store, (store.rows.map Row.untimed).Pairwise Row.Precedes :=
    fun store => store.sorted.map _ fun _ _ hprecedes => hprecedes
  have hmem : ∀ {store other : Store},
      (∀ project key, (store.findRow? project key).map Row.untimed =
        (other.findRow? project key).map Row.untimed) →
      ∀ row ∈ store.rows.map Row.untimed, row ∈ other.rows.map Row.untimed := by
    intro store other hsame row hrow
    obtain ⟨old, hold, rfl⟩ := List.mem_map.mp hrow
    have hplace := hsame old.project old.key
    rw [findRow?_eq_some_iff.mpr ⟨hold, rfl, rfl⟩] at hplace
    obtain ⟨found, hfound, huntimed⟩ := Option.map_eq_some_iff.mp hplace.symm
    exact List.mem_map.mpr ⟨found, (findRow?_eq_some_iff.mp hfound).1, huntimed⟩
  have hirrefl : Std.Irrefl Row.Precedes := ⟨Row.Precedes.irrefl⟩
  have hantisymm : Std.Antisymm Row.Precedes :=
    ⟨fun a b hab hba => absurd (hab.trans hba) (Row.Precedes.irrefl a)⟩
  refine (hsorted store).eq_of_mem_iff (hsorted other) fun row => ⟨hmem h row, hmem ?_ row⟩
  exact fun project key => (h project key).symm

/-- **A second merge of a batch changes no row**, but for the time of its last write. -/
theorem untimed_again (h : first.Absorbs project origin batch second)
    (h' : second.Absorbs project source batch third) :
    third.rows.map Row.untimed = second.rows.map Row.untimed := by
  refine map_untimed_eq fun other key => ?_
  by_cases hproject : other = project
  · subst hproject
    exact untimed_again_at h h' key
  · rw [h'.takes.others fun hplace => hproject hplace.1]

/-- After a merge every tag of a batch without repeated keys is carried by its row. -/
theorem TakesAll.exists_carries (h : first.TakesAll project origin batch second)
    (hdistinct : (batch.map Tag.key).Nodup) :
    ∀ tag ∈ batch, ∃ row, second.findRow? project tag.key = some row ∧ row.Carries tag := by
  intro tag htag
  obtain ⟨last, hlast⟩ := exists_find?_key
    (List.mem_map_of_mem (f := Tag.key) (List.mem_reverse.mpr htag))
  have hfound := List.find?_some hlast
  have hkey : last.key = tag.key := beq_iff_eq.mp hfound
  have hmem : last ∈ batch := List.mem_reverse.mp (List.mem_of_find?_eq_some hlast)
  obtain rfl := List.inj_on_of_nodup_map hdistinct hmem htag hkey
  exact h.carried hlast

/-- A second merge finds a row at every key. -/
theorem TakesAll.countP_new (h : first.TakesAll project origin batch second)
    (h' : second.TakesAll project source batch third) :
    (third.projectRows project).countP
      (fun row => (second.findRow? project row.key).isNone) = 0 := by
  refine List.countP_eq_zero.mpr fun row hrow => ?_
  have hfind := mem_projectRows_iff.mp hrow
  by_cases hkey : row.key ∈ batch.map Tag.key
  · rw [← List.mem_reverse, ← List.map_reverse] at hkey
    obtain ⟨last, hlast⟩ := exists_find?_key hkey
    obtain ⟨found, hfound, -⟩ := h.carried hlast
    rw [hfound]
    exact Bool.false_ne_true
  · rw [h'.others fun hplace => hkey hplace.2] at hfind
    rw [hfind]
    exact Bool.false_ne_true

end Store

namespace MergeRun

variable {database : Database} {project : Int} {listed : List StoredTag}

/-- What a merge without failures makes of the store. -/
theorem absorbs (hworks : database.Works) (hlisted : database.store.list project = .ok listed)
    (origin : Origin) (supply : Supply) (batch : List Tag) :
    database.store.Absorbs project origin batch
      (takeAll ⟨.start project origin listed, database, supply⟩ batch).database.store where
  takes := by
    have hnone : (Merge.start project origin listed).Succeeds := List.forall_mem_nil _
    exact takesAll_takeAll hlisted (succeeds_takeAll hnone hworks batch)
  leaves key := by
    let run : MergeRun := ⟨.start project origin listed, database, supply⟩
    exact run.leaves_takeAll (Merge.knows_start hlisted origin) hworks batch key

/-- A project that has been merged into can still be listed. -/
theorem exists_list_takeAll (hlisted : database.store.list project = .ok listed)
    (origin : Origin) (supply : Supply) (batch : List Tag) :
    ∃ stored, (takeAll ⟨.start project origin listed, database, supply⟩
      batch).database.store.list project = .ok stored := by
  let run : MergeRun := ⟨.start project origin listed, database, supply⟩
  obtain ⟨hproject, hknows⟩ := run.knows_takeAll (Merge.knows_start hlisted origin) batch
  have hlists := hknows.exists_list
  rwa [hproject] at hlists

end MergeRun

namespace Service

open Live

variable {service again : Service} {number : Nat} {job : Job} {origin : Origin}
  {batch : List Tag} {diagnostics : List Diagnostic}

/-- A merge into a project that can be read brings the store to rest: the project can be
read again, and nothing that a tag of the batch says is missing there. -/
theorem IsNext.absorbs (h : service.IsNext number job origin batch diagnostics)
    (hworks : service.database.Works) {listed : List StoredTag}
    (hlisted : service.database.store.list job.project = .ok listed) :
    ∃ report after stored, service.Merges number job batch diagnostics report after ∧
      service.database.store.Absorbs job.project origin batch after.database.store ∧
      after.database.store.list job.project = .ok stored ∧
      report.Counts job.project batch service.database.store after.database.store := by
  obtain ⟨after, hmerges, hdatabase⟩ := h.merges ((hworks.list_eq _).trans hlisted)
  obtain ⟨stored, hstored⟩ :=
    MergeRun.exists_list_takeAll hlisted origin service.supply batch
  refine ⟨_, after, stored, hmerges, ?_⟩
  rw [hdatabase]
  exact ⟨MergeRun.absorbs hworks hlisted origin service.supply batch, hstored,
    MergeRun.counts hlisted origin service.supply batch⟩

/-- A merge all of whose tags are stored already counts them and does nothing else. -/
theorem IsNext.merges_carried (h : service.IsNext number job origin batch diagnostics)
    (hworks : service.database.Works) {listed : List StoredTag}
    (hlisted : service.database.store.list job.project = .ok listed)
    (hdistinct : (batch.map Tag.key).Nodup)
    (hcarried : ∀ tag ∈ batch, ∃ row,
      service.database.store.findRow? job.project tag.key = some row ∧ row.Carries tag) :
    ∃ after, service.Merges number job batch diagnostics { unchanged := batch.length } after ∧
      after.database = service.database := by
  obtain ⟨after, hmerges, hdatabase⟩ := h.merges ((hworks.list_eq _).trans hlisted)
  let run : MergeRun := ⟨.start job.project origin listed, service.database, service.supply⟩
  have hknows : run.merge.Knows run.database.store := Merge.knows_start hlisted origin
  obtain ⟨hreport, hstays⟩ := MergeRun.takeAll_of_carried hknows
    ⟨List.pairwise_map.mp hdistinct, fun _ _ => List.not_mem_nil⟩ hcarried
  rw [hreport] at hmerges
  refine ⟨after, ?_, hdatabase.trans hstays⟩
  simpa [run, Merge.start] using hmerges

/-- **Merging a batch twice is merging it once.**  Whatever the store and the origins, a
second merge of a batch inserts nothing and leaves all of every row but the time of its last
write.  If no key stands in the batch twice, it counts all tags as unchanged, reports no
problem, and leaves the store as it is.  A project that cannot be read is not merged into at
all. -/
theorem repeats (h : service.IsNext number job origin batch diagnostics)
    (hworks : service.database.Works) :
    (∃ failure after, service.database.list job.project = .error failure ∧
      service.jobStep? number = some after ∧ after.database = service.database) ∨
    ∃ report after, service.Merges number job batch diagnostics report after ∧
      ∀ (again : Service) (place : Nat) (twin : Job) (source : Origin)
        (remarks : List Diagnostic), again.IsNext place twin source batch remarks →
        again.database.Works → twin.project = job.project →
        again.database.store = after.database.store →
        ∃ second later, again.Merges place twin batch remarks second later ∧
          second.inserted = 0 ∧
          later.database.store.rows.map Store.Row.untimed =
            after.database.store.rows.map Store.Row.untimed ∧
          ((batch.map Tag.key).Nodup → second = { unchanged := batch.length } ∧
            later.database.store = after.database.store) := by
  rw [hworks.list_eq]
  cases hlisted : service.database.store.list job.project with
  | error failure =>
      obtain ⟨after, hstep, hdatabase⟩ := h.unlisted ((hworks.list_eq _).trans hlisted)
      exact .inl ⟨failure, after, rfl, hstep, hdatabase⟩
  | ok listed =>
      obtain ⟨report, after, stored, hmerges, habsorbs, hstored, -⟩ := h.absorbs hworks hlisted
      refine .inr ⟨report, after, hmerges, ?_⟩
      intro again place twin source remarks hagain hworksAgain hproject hstore
      rw [← hproject] at habsorbs hstored
      rw [← hstore] at habsorbs hstored ⊢
      -- Without repeated keys the second merge finds each row as it would write it.
      by_cases hdistinct : (batch.map Tag.key).Nodup
      · obtain ⟨later, hmergesAgain, hstays⟩ := hagain.merges_carried hworksAgain hstored
          hdistinct (habsorbs.takes.exists_carries hdistinct)
        exact ⟨_, later, hmergesAgain, rfl, by rw [hstays], fun _ => ⟨rfl, by rw [hstays]⟩⟩
      · obtain ⟨second, later, -, hmergesAgain, habsorbsAgain, -, hcounts⟩ :=
          hagain.absorbs hworksAgain hstored
        refine ⟨second, later, hmergesAgain, ?_, Store.untimed_again habsorbs habsorbsAgain,
          fun hnodup => absurd hnodup hdistinct⟩
        rw [hcounts.inserted]
        exact habsorbs.takes.countP_new habsorbsAgain.takes

/-- Two tags that are merged twice are unchanged the second time. -/
theorem repeats_pumpsAndValve :
    let batch := pumpsAndValve.tail
    let service := mergeService [] batch
    service.database.Works ∧ (batch.map Tag.key).Nodup ∧
      ∃ report after, service.Merges 0 (mergeJob batch) batch [] report after ∧
        let again : Service := { service with database := { store := after.database.store } }
        ∃ later, again.Merges 0 (mergeJob batch) batch [] { unchanged := 2 } later ∧
          later.database.store = after.database.store := by
  intro batch service
  have hworks : service.database.Works := ⟨rfl, rfl⟩
  have hnext := isNext_mergeService [] batch
  have hdistinct : (batch.map Tag.key).Nodup := by decide
  have hlisted : ∃ listed, service.database.list 7 = .ok listed := by
    rw [hworks.list_eq]
    refine Store.exists_list fun row hrow => ?_
    obtain rfl := List.mem_singleton.mp hrow
    exact ⟨_, Store.read_ofTag (Supply.stamp {}) 7 (pumpTag "Pump" "")⟩
  refine ⟨hworks, hdistinct, ?_⟩
  rcases repeats hnext hworks with ⟨failure, after, hfails, -⟩ | ⟨report, after, hmerges, hagain⟩
  · obtain ⟨listed, hlisted⟩ := hlisted
    cases hlisted.symm.trans hfails
  · obtain ⟨second, later, hmergesAgain, -, -, hstays⟩ :=
      hagain { service with database := { store := after.database.store } } 0 (mergeJob batch)
        .generated [] ⟨rfl, rfl, rfl⟩ ⟨rfl, rfl⟩ rfl rfl
    obtain ⟨rfl, hstore⟩ := hstays hdistinct
    exact ⟨report, after, hmerges, later, hmergesAgain, hstore⟩

end Service

end PlcTags
