import PlcTags.Proofs.Store.Batch

/-!
# What a merge means

A merge goes through its batch once, and relies on its own picture of the project.  What a
tag can make of the merge and of the database is said once (`StepGo`).  The picture is right
before the first tag (`knows_start`) and after each (`Knows.step`), so each tag is taken as
the store says (`takes_take`), and along the batch this is what the whole merge does
(`takesAll_takeAll`).

What a batch does is said of merges all of whose writes succeed, so that their reports name no
conflict with the store (`Merge.Succeeds`).
-/

namespace PlcTags

open Store (Row)

/-! ## Runs of a merge -/

/-- A merge on its way, with the database it writes to and the stamps it takes. -/
structure MergeRun where
  merge : Merge
  database : Database
  supply : Supply

namespace MergeRun

/-- One tag of the batch. -/
def take (run : MergeRun) (tag : Tag) : MergeRun where
  merge := (run.merge.step run.supply.stamp run.database tag).1
  database := (run.merge.step run.supply.stamp run.database tag).2
  supply := run.supply.next

/-- All tags of the batch. -/
def takeAll (run : MergeRun) (batch : List Tag) : MergeRun :=
  batch.foldl take run

end MergeRun

/-! ## What a merge knows -/

namespace Merge

/-- A merge's picture of its project is right. -/
structure Knows (merge : Merge) (store : Store) : Prop where
  of_row : ∀ {key row}, store.findRow? merge.project key = some row →
    ∃ stored, row.read = .ok stored ∧ merge.known.lookup key = some stored.tag
  of_none : ∀ {key}, store.findRow? merge.project key = none → merge.known.lookup key = none

/-- Tags that were listed are found by their keys, as the rows are. -/
theorem lookup_of_mapM {rows : List Row} {listed : List StoredTag}
    (hlisted : rows.mapM Row.read = .ok listed)
    (hdistinct : rows.Pairwise fun a b => a.key ≠ b.key) (key : String) :
    (∀ {row}, rows.find? (·.key == key) = some row → ∃ stored, row.read = .ok stored ∧
      (listed.map fun stored => (stored.tag.key, stored.tag)).reverse.lookup key =
        some stored.tag) ∧
    (rows.find? (·.key == key) = none →
      (listed.map fun stored => (stored.tag.key, stored.tag)).reverse.lookup key = none) := by
  induction rows generalizing listed with
  | nil =>
      obtain rfl := Except.ok.inj hlisted
      exact ⟨fun h => (by cases h), fun _ => rfl⟩
  | cons first rows ih =>
      obtain ⟨hfirst, hrest⟩ := List.pairwise_cons.mp hdistinct
      obtain ⟨stored, others, hread, hothers, rfl⟩ := mapM_cons_eq_ok hlisted
      obtain ⟨hfound, hnone⟩ := ih hothers hrest
      rw [List.map_cons, List.reverse_cons, List.lookup_append, List.find?_cons,
        Store.key_of_read hread]
      by_cases hsame : first.key = key
      · -- No other row has this key, so the last pair of the list counts.
        have habsent : rows.find? (·.key == key) = none := by
          refine List.find?_eq_none.mpr ?_
          intro row hrow
          simpa using fun heq => hfirst row hrow (hsame.trans heq.symm)
        rw [hnone habsent]
        simp only [hsame, beq_self_eq_true]
        refine ⟨?_, fun h => (by cases h)⟩
        intro row heq
        obtain rfl := Option.some.inj heq
        rw [List.lookup_cons_self]
        exact ⟨stored, hread, rfl⟩
      · have hbeq : (first.key == key) = false := beq_false_of_ne hsame
        have hlast : [(first.key, stored.tag)].lookup key = none := by
          have hpair : (key == first.key) = false := beq_false_of_ne (Ne.symm hsame)
          rw [List.lookup_cons, hpair]
          rfl
        simp only [hbeq, hlast, Option.or_none]
        exact ⟨hfound, hnone⟩

theorem findRow?_eq_find? (store : Store) (project : Int) (key : String) :
    store.findRow? project key = (store.projectRows project).find? (·.key == key) := by
  rw [Store.findRow?, Store.projectRows, List.find?_filter]
  congr 1
  funext row
  rw [Bool.eq_iff_iff, decide_eq_true_iff, Bool.and_eq_true]

/-- At its start a merge knows the project that it has read. -/
theorem knows_start {store : Store} {project : Int} {listed : List StoredTag}
    (hlisted : store.list project = .ok listed) (origin : Origin) :
    (start project origin listed).Knows store := by
  have hdistinct := store.pairwise_ne_projectRows project
  have hlookup := fun key => lookup_of_mapM hlisted hdistinct key
  constructor
  · intro key row hrow
    rw [findRow?_eq_find?] at hrow
    exact (hlookup key).1 hrow
  · intro key hnone
    rw [findRow?_eq_find?] at hnone
    exact (hlookup key).2 hnone

end Merge

/-! ## One tag -/

/-- The row of a write can always be read. -/
theorem Store.read_written (store : Store) (stamp : Stamp) (project : Int) (tag : Tag) :
    ∃ stored, (store.written stamp project tag).read = .ok stored := by
  obtain ⟨stored, hread, -⟩ := store.carries_written stamp project tag
  exact ⟨stored, hread⟩

namespace Database

variable {database : Database} {tag : Tag}

theorem upsertResult_eq_read (h : database.writeFailure? tag.name = none) (stamp : Stamp)
    (project : Int) :
    database.upsertResult stamp project tag = (database.store.written stamp project tag).read := by
  rw [upsertResult, h]

/-- A project that is listed is read from the store. -/
theorem list_eq_ok {project : Int} {listed : List StoredTag}
    (h : database.list project = .ok listed) : database.store.list project = .ok listed := by
  unfold list ifOpen at h
  split at h
  · cases h
  · split at h
    · exact h
    · cases h

end Database

namespace Merge

/-- No write of the merge has failed so far. -/
def Succeeds (merge : Merge) : Prop :=
  ∀ problem ∈ merge.report.errors, problem.code ≠ .storeConflict

instance (merge : Merge) : Decidable merge.Succeeds :=
  inferInstanceAs (Decidable (∀ problem ∈ merge.report.errors, problem.code ≠ .storeConflict))

theorem succeeds_note {merge : Merge} {problem : Diagnostic} :
    (merge.note problem).Succeeds ↔ merge.Succeeds ∧ problem.code ≠ .storeConflict := by
  unfold Succeeds note
  rw [List.forall_mem_append, List.forall_mem_singleton]

theorem succeeds_of_meet {merge : Merge} {tag : Tag} (h : (merge.meet tag).Succeeds) :
    merge.Succeeds := by
  unfold meet at h
  split at h
  · exact (succeeds_note.mp h).1
  · exact h

theorem countWritten_errors (merge : Merge) (wasKnown : Bool) :
    (merge.countWritten wasKnown).report.errors = merge.report.errors := by
  cases wasKnown <;> rfl

/-- A write whose failure is not noted has succeeded. -/
theorem succeeds_of_wrote {merge : Merge} {tag : Tag} {answer : Except Failure StoredTag}
    (h : (merge.wrote tag answer).Succeeds) :
    merge.Succeeds ∧ ∃ stored, answer = .ok stored := by
  cases answer with
  | error failure => exact absurd rfl (succeeds_note.mp h).2
  | ok stored =>
      refine ⟨?_, stored, rfl⟩
      intro problem hproblem
      refine h problem ?_
      show problem ∈ (merge.countWritten _).report.errors
      rw [countWritten_errors]
      exact hproblem

theorem meet_frame (merge : Merge) (tag : Tag) :
    (merge.meet tag).project = merge.project ∧ (merge.meet tag).origin = merge.origin ∧
      (merge.meet tag).known = merge.known := by
  unfold meet
  split <;> exact ⟨rfl, rfl, rfl⟩

theorem needsWrite_meet (merge : Merge) (tag : Tag) :
    (merge.meet tag).needsWrite tag = merge.needsWrite tag := by
  rw [needsWrite, needsWrite, (merge.meet_frame tag).2.2]

/-- A tag that differs from what the merge knows is written. -/
theorem step_of_needsWrite {merge : Merge} {tag : Tag} (h : merge.needsWrite tag = true)
    (stamp : Stamp) (database : Database) :
    merge.step stamp database tag =
      ((merge.meet tag).wrote (merge.marked tag)
          (database.upsertResult stamp merge.project (merge.marked tag)),
        database.upsert stamp merge.project (merge.marked tag)) := by
  obtain ⟨hproject, horigin, -⟩ := merge.meet_frame tag
  have hmarked : (merge.meet tag).marked tag = merge.marked tag := by
    rw [marked, marked, horigin]
  rw [← needsWrite_meet] at h
  rw [← hmarked, ← hproject]
  exact if_pos h

theorem step_of_not_needsWrite {merge : Merge} {tag : Tag} (h : merge.needsWrite tag = false)
    (stamp : Stamp) (database : Database) :
    merge.step stamp database tag = ((merge.meet tag).countUnchanged, database) := by
  rw [← needsWrite_meet] at h
  exact if_neg (by rw [h]; exact Bool.false_ne_true)

/-- What a tag makes of a merge and of the database: it needs no write, its write fails, or it is
written, and read back. -/
inductive StepGo (merge : Merge) (stamp : Stamp) (database : Database) (tag : Tag) :
    Merge × Database → Prop where
  | keeps (hwrite : merge.needsWrite tag = false) :
      StepGo merge stamp database tag ((merge.meet tag).countUnchanged, database)
  | fails {failure : Failure} (hwrite : merge.needsWrite tag = true)
      (hfails : database.writeFailure? tag.name = some failure) :
      StepGo merge stamp database tag
        ((merge.meet tag).wrote (merge.marked tag) (.error failure), database)
  | writes {stored : StoredTag} (hwrite : merge.needsWrite tag = true)
      (haccepts : database.writeFailure? tag.name = none)
      (hread : (database.store.written stamp merge.project (merge.marked tag)).read =
        .ok stored) :
      StepGo merge stamp database tag
        ((merge.meet tag).wrote (merge.marked tag) (.ok stored),
          { database with
            store := database.store.upsert stamp merge.project (merge.marked tag) })

theorem stepGo (merge : Merge) (stamp : Stamp) (database : Database) (tag : Tag) :
    StepGo merge stamp database tag (merge.step stamp database tag) := by
  cases hwrite : merge.needsWrite tag with
  | false =>
      rw [step_of_not_needsWrite hwrite]
      exact .keeps hwrite
  | true =>
      rw [step_of_needsWrite hwrite]
      cases hwritten : database.writeFailure? (merge.marked tag).name with
      | some failure =>
          simp only [Database.upsert, Database.upsertResult, hwritten]
          exact .fails hwrite hwritten
      | none =>
          obtain ⟨stored, hread⟩ :=
            database.store.read_written stamp merge.project (merge.marked tag)
          simp only [Database.upsert, Database.upsertResult, hwritten, hread]
          exact .writes hwrite hwritten hread

/-- No tag changes where a merge belongs. -/
theorem step_frame (merge : Merge) (stamp : Stamp) (database : Database) (tag : Tag) :
    (merge.step stamp database tag).1.project = merge.project ∧
      (merge.step stamp database tag).1.origin = merge.origin := by
  obtain ⟨hproject, horigin, -⟩ := merge.meet_frame tag
  have hgo := merge.stepGo stamp database tag
  generalize merge.step stamp database tag = result at hgo ⊢
  cases hgo with
  | keeps | fails | writes => exact ⟨hproject, horigin⟩

/-- A tag that needs no write is stored already. -/
theorem Knows.sameFields {merge : Merge} {store : Store} (h : merge.Knows store) {tag : Tag}
    (hwrite : merge.needsWrite tag = false) :
    ∃ row stored, store.findRow? merge.project tag.key = some row ∧ row.read = .ok stored ∧
      SameFields stored.tag tag := by
  cases hfind : store.findRow? merge.project tag.key with
  | none =>
      rw [needsWrite, h.of_none hfind] at hwrite
      cases hwrite
  | some row =>
      obtain ⟨stored, hread, hlookup⟩ := h.of_row hfind
      rw [needsWrite, hlookup] at hwrite
      refine ⟨row, stored, rfl, hread, ?_⟩
      simpa using hwrite

/-- The picture is only about the project and the tags in it. -/
theorem Knows.congr {merge other : Merge} {store : Store} (h : merge.Knows store)
    (hproject : other.project = merge.project) (hknown : other.known = merge.known) :
    other.Knows store where
  of_row hrow := by
    rw [hproject] at hrow
    rw [hknown]
    exact h.of_row hrow
  of_none hnone := by
    rw [hproject] at hnone
    rw [hknown]
    exact h.of_none hnone

/-- What a merge learns from a write is right. -/
theorem Knows.learn {merge : Merge} {store : Store} (h : merge.Knows store) {stamp : Stamp}
    {tag : Tag} {stored : StoredTag}
    (hread : (store.written stamp merge.project tag).read = .ok stored) :
    (merge.learn tag.key stored.tag).Knows (store.upsert stamp merge.project tag) := by
  have hself := Store.findRow?_upsert_self store stamp merge.project tag
  have hother : ∀ {key : String}, key ≠ tag.key →
      (store.upsert stamp merge.project tag).findRow? merge.project key =
          store.findRow? merge.project key ∧
        (merge.learn tag.key stored.tag).known.lookup key = merge.known.lookup key := by
    intro key hkey
    refine ⟨Store.findRow?_upsert_of_ne fun hplace => hkey hplace.2, ?_⟩
    have hbeq : (key == tag.key) = false := beq_false_of_ne hkey
    simp only [Merge.learn, List.lookup_cons, hbeq]
  -- Of the key that was written the new row is known, of all others what was known.
  constructor
  · intro key row hrow
    by_cases hkey : key = tag.key
    · subst hkey
      obtain rfl := Option.some.inj (hself.symm.trans hrow)
      exact ⟨stored, hread, List.lookup_cons_self⟩
    · obtain ⟨hfind, hlookup⟩ := hother hkey
      rw [hlookup]
      exact h.of_row (hfind.symm.trans hrow)
  · intro key hnone
    by_cases hkey : key = tag.key
    · subst hkey
      cases hself.symm.trans hnone
    · obtain ⟨hfind, hlookup⟩ := hother hkey
      rw [hlookup]
      exact h.of_none (hfind.symm.trans hnone)

theorem known_wrote_ok (merge : Merge) (tag : Tag) (stored : StoredTag) :
    ((merge.meet tag).wrote (merge.marked tag) (.ok stored)).known =
      (tag.key, stored.tag) :: merge.known :=
  congrArg (List.cons (tag.key, stored.tag)) (merge.meet_frame tag).2.2

/-- What a merge knows stays right with each tag, also if its write fails. -/
theorem Knows.step {merge : Merge} {database : Database} (h : merge.Knows database.store)
    (stamp : Stamp) (tag : Tag) :
    (merge.step stamp database tag).1.Knows (merge.step stamp database tag).2.store := by
  obtain ⟨hproject, -, hknown⟩ := merge.meet_frame tag
  have hgo := merge.stepGo stamp database tag
  generalize merge.step stamp database tag = result at hgo ⊢
  cases hgo with
  | keeps | fails => exact h.congr hproject hknown
  | writes hwrite haccepts hread =>
      exact (h.learn hread).congr hproject (merge.known_wrote_ok tag _)

end Merge

namespace MergeRun

theorem take_frame (run : MergeRun) (tag : Tag) :
    (run.take tag).merge.project = run.merge.project ∧
      (run.take tag).merge.origin = run.merge.origin :=
  run.merge.step_frame run.supply.stamp run.database tag

/-- If a merge succeeds with one more tag, it has succeeded before and writes the tag if it
has to. -/
theorem succeeds_of_take {run : MergeRun} {tag : Tag} (h : (run.take tag).merge.Succeeds) :
    run.merge.Succeeds ∧
      (run.merge.needsWrite tag = true → run.database.writeFailure? tag.name = none) := by
  have hgo := run.merge.stepGo run.supply.stamp run.database tag
  rw [take] at h
  generalize run.merge.step run.supply.stamp run.database tag = result at hgo h
  cases hgo with
  | keeps hwrite =>
      exact ⟨Merge.succeeds_of_meet h, fun hneeds => by cases hwrite.symm.trans hneeds⟩
  | fails =>
      obtain ⟨-, stored, hanswer⟩ := Merge.succeeds_of_wrote h
      cases hanswer
  | writes hwrite haccepts =>
      exact ⟨Merge.succeeds_of_meet (Merge.succeeds_of_wrote h).1, fun _ => haccepts⟩

/-- One tag of a merge whose picture is right: the store takes it, and the picture stays
right. -/
theorem takes_take {run : MergeRun} {tag : Tag} (hknows : run.merge.Knows run.database.store)
    (hsucceeds : (run.take tag).merge.Succeeds) :
    run.database.store.Takes run.merge.project run.merge.origin tag
        (run.take tag).database.store ∧
      (run.take tag).merge.Knows (run.take tag).database.store := by
  refine ⟨?_, hknows.step run.supply.stamp tag⟩
  have hgo := run.merge.stepGo run.supply.stamp run.database tag
  rw [take] at hsucceeds ⊢
  generalize run.merge.step run.supply.stamp run.database tag = result at hgo hsucceeds ⊢
  cases hgo with
  | keeps hwrite =>
      obtain ⟨row, stored, hrow, hread, hsame⟩ := hknows.sameFields hwrite
      exact Store.takes_of_sameFields hrow hread hsame
  | fails =>
      obtain ⟨-, stored, hanswer⟩ := Merge.succeeds_of_wrote hsucceeds
      cases hanswer
  | writes hwrite haccepts hread =>
      have htakes : run.database.store.Takes run.merge.project run.merge.origin
          (run.merge.marked tag) (run.database.store.upsert run.supply.stamp run.merge.project
            (run.merge.marked tag)) :=
        Store.takes_upsert _ _ _ _ rfl
      -- The mark is no field that a row carries.
      exact ⟨htakes.others, htakes.carried, htakes.kept, htakes.created⟩

theorem succeeds_of_takeAll {run : MergeRun} {batch : List Tag}
    (h : (run.takeAll batch).merge.Succeeds) : run.merge.Succeeds := by
  induction batch generalizing run with
  | nil => exact h
  | cons tag rest ih => exact (succeeds_of_take (ih h)).1

/-- What has been taken so far stays taken as the run goes on. -/
theorem takesAll_takeAll_of {run : MergeRun} {before : Store} {done rest : List Tag}
    (hknows : run.merge.Knows run.database.store)
    (hdone : before.TakesAll run.merge.project run.merge.origin done run.database.store)
    (hsucceeds : (run.takeAll rest).merge.Succeeds) :
    before.TakesAll run.merge.project run.merge.origin (done ++ rest)
      (run.takeAll rest).database.store := by
  induction rest generalizing run done with
  | nil => rwa [List.append_nil]
  | cons tag rest ih =>
      obtain ⟨htakes, hknows'⟩ := takes_take hknows (succeeds_of_takeAll hsucceeds)
      obtain ⟨hproject, horigin⟩ := run.take_frame tag
      have hdone' : before.TakesAll (run.take tag).merge.project (run.take tag).merge.origin
          (done ++ [tag]) (run.take tag).database.store := by
        rw [hproject, horigin]
        exact hdone.snoc htakes
      have hrest := ih hknows' hdone' hsucceeds
      rw [hproject, horigin, List.append_assoc] at hrest
      exact hrest

/-- **A merge does what its batch says**, if it begins with what the store lists and all
its writes succeed. -/
theorem takesAll_takeAll {database : Database} {project : Int} {listed : List StoredTag}
    (hlisted : database.store.list project = .ok listed) {origin : Origin} {supply : Supply}
    {batch : List Tag}
    (hsucceeds :
      (takeAll ⟨.start project origin listed, database, supply⟩ batch).merge.Succeeds) :
    database.store.TakesAll project origin batch
      (takeAll ⟨.start project origin listed, database, supply⟩ batch).database.store := by
  let run : MergeRun := ⟨.start project origin listed, database, supply⟩
  have hknows : run.merge.Knows run.database.store := Merge.knows_start hlisted origin
  exact takesAll_takeAll_of hknows (Store.takesAll_nil database.store project origin) hsucceeds

end MergeRun

end PlcTags
