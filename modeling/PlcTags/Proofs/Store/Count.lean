import PlcTags.Proofs.Store.Merge

/-!
# What a merge counts

Of two kinds of batches it is known beforehand what their merge counts, if no name
stands in them twice.  Tags that are all new to the project are all inserted
(`takeAll_of_new`), and tags that are all stored already are all unchanged, and leave the
database as it is (`takeAll_of_stored`).  No write may fail for the former; the latter
has none.

Both are inductions over the batch.  What carries them is that a step of the merge
meets and learns one key only, and this is none of the keys that are left.
-/

namespace PlcTags

/-! ## Databases without failures -/

namespace Database

/-- No access to the database fails. -/
structure Works (database : Database) : Prop where
  is_open : database.isOpen = true
  refusals : database.refusals = {}

variable {database : Database}

/-- Only the rows decide whether a project is listed. -/
theorem Works.list_eq (h : database.Works) (project : Int) :
    database.list project = database.store.list project := by
  rw [list, ifOpen, h.refusals, h.is_open]
  rfl

theorem Works.writeFailure?_eq_none (h : database.Works) (name : String) :
    database.writeFailure? name = none := by
  rw [writeFailure?, h.refusals, h.is_open]
  rfl

theorem Works.upsert (h : database.Works) (stamp : Stamp) (project : Int) (tag : Tag) :
    (database.upsert stamp project tag).Works := by
  rw [Database.upsert, h.writeFailure?_eq_none]
  exact ⟨h.is_open, h.refusals⟩

end Database

/-! ## One tag -/

namespace Merge

variable {merge : Merge} {tag : Tag}

theorem meet_of_not_met (h : tag.key ∉ merge.met) :
    merge.meet tag = { merge with met := tag.key :: merge.met } := by
  rw [meet, if_neg h]

/-- A new tag is inserted. -/
theorem step_of_new {database : Database} (hmet : tag.key ∉ merge.met)
    (hnew : merge.known.lookup tag.key = none) (hworks : database.Works) (stamp : Stamp) :
    ∃ stored, merge.step stamp database tag =
      ({ merge with
          met := tag.key :: merge.met
          known := (tag.key, stored) :: merge.known
          report := { merge.report with inserted := merge.report.inserted + 1 } },
        database.upsert stamp merge.project (merge.marked tag)) := by
  have hneeds : merge.needsWrite tag = true := by rw [needsWrite, hnew]
  obtain ⟨stored, hread⟩ := database.store.read_written stamp merge.project (merge.marked tag)
  have hkey : (merge.marked tag).key = tag.key := rfl
  refine ⟨stored.tag, ?_⟩
  rw [step_of_needsWrite hneeds, meet_of_not_met hmet,
    Database.upsertResult_eq_read (hworks.writeFailure?_eq_none _), hread, wrote, hkey]
  simp only [hnew]
  rfl

/-- A tag that is stored already is only counted. -/
theorem step_of_stored (hmet : tag.key ∉ merge.met) (hstored : merge.needsWrite tag = false)
    (stamp : Stamp) (database : Database) :
    merge.step stamp database tag =
      ({ merge with
          met := tag.key :: merge.met
          report := { merge.report with unchanged := merge.report.unchanged + 1 } },
        database) := by
  rw [step_of_not_needsWrite hstored, meet_of_not_met hmet]
  rfl

end Merge

/-! ## Batches -/

namespace MergeRun

variable {run : MergeRun} {batch : List Tag}

/-- No key stands in a batch twice, or has been met before it. -/
structure IsFresh (run : MergeRun) (batch : List Tag) : Prop where
  distinct : batch.Pairwise fun a b => a.key ≠ b.key
  unmet : ∀ tag ∈ batch, tag.key ∉ run.merge.met

/-- The keys that are left are not the one that a step meets. -/
theorem IsFresh.tail {tag : Tag} {rest : List Tag} {next : MergeRun}
    (h : run.IsFresh (tag :: rest)) (hmet : next.merge.met = tag.key :: run.merge.met) :
    next.IsFresh rest ∧ ∀ other ∈ rest, other.key ≠ tag.key := by
  obtain ⟨hfirst, hdistinct⟩ := List.pairwise_cons.mp h.distinct
  have hne : ∀ other ∈ rest, other.key ≠ tag.key := fun other hother =>
    Ne.symm (hfirst other hother)
  refine ⟨⟨hdistinct, ?_⟩, hne⟩
  intro other hother
  rw [hmet, List.mem_cons, not_or]
  exact ⟨hne other hother, h.unmet other (List.mem_cons_of_mem _ hother)⟩

/-- **New tags are inserted**, if no write fails. -/
theorem takeAll_of_new (hworks : run.database.Works) (hfresh : run.IsFresh batch)
    (hnew : ∀ tag ∈ batch, run.merge.known.lookup tag.key = none) :
    (run.takeAll batch).merge.report =
      { run.merge.report with inserted := run.merge.report.inserted + batch.length } := by
  induction batch generalizing run with
  | nil => rfl
  | cons tag rest ih =>
      obtain ⟨stored, hstep⟩ := Merge.step_of_new (hfresh.unmet tag List.mem_cons_self)
        (hnew tag List.mem_cons_self) hworks run.supply.stamp
      have hmerge : (run.take tag).merge = _ := congrArg Prod.fst hstep
      have hdatabase : (run.take tag).database = _ := congrArg Prod.snd hstep
      obtain ⟨hrest, hne⟩ := hfresh.tail (congrArg Merge.met hmerge)
      have hworks' : (run.take tag).database.Works := by
        rw [hdatabase]
        exact hworks.upsert _ _ _
      have hnew' : ∀ other ∈ rest, (run.take tag).merge.known.lookup other.key = none := by
        intro other hother
        have hbeq : (other.key == tag.key) = false := beq_false_of_ne (hne other hother)
        have hknown : (run.take tag).merge.known = (tag.key, stored) :: run.merge.known :=
          congrArg Merge.known hmerge
        rw [hknown, List.lookup_cons, hbeq]
        exact hnew other (List.mem_cons_of_mem _ hother)
      have hreport : (run.take tag).merge.report = _ := congrArg Merge.report hmerge
      have htail := ih hworks' hrest hnew'
      rw [hreport] at htail
      show ((run.take tag).takeAll rest).merge.report = _
      rw [htail, List.length_cons]
      simp only [Nat.add_assoc, Nat.add_comm 1]

/-- **Stored tags are left alone.** -/
theorem takeAll_of_stored (hfresh : run.IsFresh batch)
    (hstored : ∀ tag ∈ batch, run.merge.needsWrite tag = false) :
    (run.takeAll batch).merge.report =
        { run.merge.report with unchanged := run.merge.report.unchanged + batch.length } ∧
      (run.takeAll batch).database = run.database := by
  induction batch generalizing run with
  | nil => exact ⟨rfl, rfl⟩
  | cons tag rest ih =>
      have hstep := Merge.step_of_stored (hfresh.unmet tag List.mem_cons_self)
        (hstored tag List.mem_cons_self) run.supply.stamp run.database
      have hmerge : (run.take tag).merge = _ := congrArg Prod.fst hstep
      have hdatabase : (run.take tag).database = run.database := congrArg Prod.snd hstep
      obtain ⟨hrest, -⟩ := hfresh.tail (congrArg Merge.met hmerge)
      have hknown : (run.take tag).merge.known = run.merge.known := by rw [hmerge]
      have hstored' : ∀ other ∈ rest, (run.take tag).merge.needsWrite other = false := by
        intro other hother
        rw [Merge.needsWrite, hknown]
        exact hstored other (List.mem_cons_of_mem _ hother)
      have hreport : (run.take tag).merge.report = _ := congrArg Merge.report hmerge
      obtain ⟨htail, htailDatabase⟩ := ih hrest hstored'
      rw [hreport] at htail
      show ((run.take tag).takeAll rest).merge.report = _ ∧
        ((run.take tag).takeAll rest).database = _
      refine ⟨?_, htailDatabase.trans hdatabase⟩
      rw [htail, List.length_cons]
      simp only [Nat.add_assoc, Nat.add_comm 1]

end MergeRun

end PlcTags
