import PlcTags.Proofs.Store.Merge
import PlcTags.Proofs.Tag.Report

/-!
# What becomes of the tags of a batch

Writes may fail, and a batch may have several tags with one key.  Still no tag is lost
without a word: when a merge is over, each tag of its batch is reported, or it is alone
with its key and its row carries it (`Store.Settles`).

One step deals with one tag (`handles_step`).  It reports a tag whose key it has met
before, and with that all earlier tags of this key, whose row may now carry the new one;
any other tag it finds in its row, writes there, or reports.  Rows of other keys stay as
they are, so what has been said of earlier tags remains true (`Accounts.snoc`).
-/

namespace PlcTags

open Store (Row)

/-- Each tag of a batch is reported among the problems, or it is alone with its key and
its row carries it. -/
def Store.Settles (store : Store) (project : Int) (batch : List Tag)
    (problems : List Diagnostic) : Prop :=
  ∀ tag ∈ batch, Reports problems tag.key ∨
    (IsAlone Tag.key batch tag ∧
      ∃ row, store.findRow? project tag.key = some row ∧ row.Carries tag)

theorem Store.Settles.congr {store other : Store} {project : Int} {batch : List Tag}
    {problems : List Diagnostic} (h : store.Settles project batch problems)
    (hrows : other.projectRows project = store.projectRows project) :
    other.Settles project batch problems := by
  intro tag htag
  refine (h tag htag).imp_right ?_
  rintro ⟨halone, row, hrow, hcarries⟩
  refine ⟨halone, row, ?_, hcarries⟩
  rw [Merge.findRow?_eq_find?, hrows, ← Merge.findRow?_eq_find?, hrow]

theorem Store.Settles.mono {store : Store} {project : Int} {batch : List Tag}
    {problems more : List Diagnostic} (h : store.Settles project batch problems)
    (hmore : problems ⊆ more) : store.Settles project batch more :=
  fun tag htag => (h tag htag).imp_left (·.mono hmore)

/-- A row with the fields of a tag says what the tag said before it was validated. -/
theorem Tag.Says.of_sameFields {tag accepted stored : Tag} (h : accepted.Says tag)
    (hsame : Merge.SameFields stored accepted) : stored.Says tag := by
  obtain ⟨hdataType, haddress, hscope, -, hdefault, hdescription, hvendor⟩ := hsame
  refine ⟨hdataType.trans h.dataType, ?_, hscope.trans h.scope,
    hdefault.trans h.defaultValue, hdescription.trans h.description, hvendor.trans h.vendor⟩
  rw [haddress]
  exact h.address

/-- **Items are accounted for by their batch.**  Some items are read as tags, the others
and their names are reported; if the batch of these tags is settled, each item is
reported, or alone with its key and its row says what the item was read as. -/
theorem Store.Settles.accounted {Item : Type} {key : Item → String} {read : Item → Option Tag}
    {items : List Item} {store : Store} {project : Int} {problems : List Diagnostic}
    (h : store.Settles project (acceptedTags (items.filterMap read)) problems)
    (hissues : batchIssues (items.filterMap read) ⊆ problems)
    (hkey : ∀ item ∈ items, ∀ tag, read item = some tag → tag.key = key item)
    (hunread : ∀ item ∈ items, read item = none → Reports problems (key item)) :
    ∀ item ∈ items, Reports problems (key item) ∨
      (IsAlone key items item ∧ ∃ tag row stored, read item = some tag ∧
        store.findRow? project (key item) = some row ∧ row.read = .ok stored ∧
        stored.tag.Says tag) := by
  let pick (item : Item) : Option Tag := (read item).bind Tag.accepted?
  -- An item is picked if it is read as a tag and that tag is accepted.
  have hpick : ∀ item ∈ items, ∀ accepted, pick item = some accepted →
      accepted.key = key item := by
    intro item hmem accepted hpicked
    obtain ⟨tag, htag, haccepted⟩ := Option.bind_eq_some_iff.mp hpicked
    exact (Tag.says_of_accepted? haccepted).1.trans (hkey item hmem tag htag)
  have hdropped : ∀ item ∈ items, pick item = none → Reports problems (key item) := by
    intro item hmem hnone
    cases htag : read item with
    | none => exact hunread item hmem htag
    | some tag =>
        have hrefused : tag.accepted? = none := by
          simpa [pick, htag] using hnone
        have hbatch : tag ∈ items.filterMap read := List.mem_filterMap.mpr ⟨item, hmem, htag⟩
        rw [← hkey item hmem tag htag]
        exact (reports_batchIssues hbatch hrefused).mono hissues
  have hbatch : acceptedTags (items.filterMap read) = items.filterMap pick := by
    rw [acceptedTags_eq_filterMap, List.filterMap_filterMap]
  rw [hbatch] at h
  intro item hmem
  refine (reported_or_alone hpick hdropped h item hmem).imp_right ?_
  rintro ⟨halone, accepted, hpicked, row, hrow, stored, hread, hsame⟩
  obtain ⟨tag, htag, haccepted⟩ := Option.bind_eq_some_iff.mp hpicked
  refine ⟨halone, tag, row, stored, htag, ?_, hread,
    (Tag.says_of_accepted? haccepted).2.of_sameFields hsame⟩
  rw [← hpick item hmem accepted hpicked]
  exact hrow

namespace Merge

variable {merge next : Merge} {database : Database} {store before after : Store} {tag : Tag}

/-! ## One tag -/

/-- A merge has dealt with a tag. -/
structure Handles (merge : Merge) (before : Store) (tag : Tag) (next : Merge) (after : Store) :
    Prop where
  project : next.project = merge.project
  knows : next.Knows after
  others : ∀ {key}, key ≠ tag.key →
    after.findRow? merge.project key = before.findRow? merge.project key
  errors : merge.report.errors ⊆ next.report.errors
  met : next.met = tag.key :: merge.met
  repeated : tag.key ∈ merge.met → Reports next.report.errors tag.key
  own : Reports next.report.errors tag.key ∨
    ∃ row, after.findRow? merge.project tag.key = some row ∧ row.Carries tag

theorem met_meet (merge : Merge) (tag : Tag) : (merge.meet tag).met = tag.key :: merge.met := rfl

theorem errors_meet (merge : Merge) (tag : Tag) :
    merge.report.errors ⊆ (merge.meet tag).report.errors := by
  unfold meet
  split
  · exact List.subset_append_left _ _
  · exact List.Subset.refl _

/-- A key that has been met before is reported. -/
theorem reports_meet (h : tag.key ∈ merge.met) :
    Reports (merge.meet tag).report.errors tag.key := by
  unfold meet
  rw [if_pos h]
  exact reports_of_mem (List.mem_append_right _ List.mem_cons_self) rfl rfl

/-- After it has met the tag, a merge only has to do something about its row. -/
theorem handles_of_meet (hproject : next.project = merge.project)
    (hmet : next.met = (merge.meet tag).met)
    (herrors : (merge.meet tag).report.errors ⊆ next.report.errors) (hknows : next.Knows after)
    (hothers : ∀ {key}, key ≠ tag.key →
      after.findRow? merge.project key = before.findRow? merge.project key)
    (hown : Reports next.report.errors tag.key ∨
      ∃ row, after.findRow? merge.project tag.key = some row ∧ row.Carries tag) :
    merge.Handles before tag next after where
  project := hproject
  knows := hknows
  others := hothers
  errors _ hproblem := herrors (merge.errors_meet tag hproblem)
  met := hmet.trans (merge.met_meet tag)
  repeated h := (reports_meet h).mono herrors
  own := hown

/-- A tag whose write fails is reported. -/
theorem handles_conflict (h : merge.Knows store) (tag : Tag) (failure : Failure) :
    merge.Handles store tag ((merge.meet tag).wrote (merge.marked tag) (.error failure)) store := by
  obtain ⟨hproject, -, hknown⟩ := merge.meet_frame tag
  refine handles_of_meet hproject rfl (List.subset_append_left _ _) (h.congr hproject hknown)
    (fun _ => rfl) (.inl ?_)
  have hmem : conflict tag.name failure ∈
      ((merge.meet tag).wrote (merge.marked tag) (.error failure)).report.errors :=
    List.mem_append_right _ List.mem_cons_self
  exact reports_of_mem hmem rfl rfl

/-- A tag that is written is carried by its row. -/
theorem handles_written (h : merge.Knows store) (stamp : Stamp) (tag : Tag) {stored : StoredTag}
    (hread : (store.written stamp merge.project (merge.marked tag)).read = .ok stored) :
    merge.Handles store tag ((merge.meet tag).wrote (merge.marked tag) (.ok stored))
      (store.upsert stamp merge.project (merge.marked tag)) := by
  obtain ⟨hproject, -⟩ := merge.meet_frame tag
  have herrors : (merge.meet tag).report.errors ⊆
      ((merge.meet tag).wrote (merge.marked tag) (.ok stored)).report.errors := by
    show _ ⊆ ((merge.meet tag).countWritten _).report.errors
    rw [countWritten_errors]
    exact List.Subset.refl _
  refine handles_of_meet hproject rfl herrors
    ((h.learn hread).congr hproject (merge.known_wrote_ok tag stored)) ?_ (.inr ?_)
  · intro key hkey
    exact Store.findRow?_upsert_of_ne fun hplace => hkey hplace.2
  · -- The mark is no field that a row carries.
    obtain ⟨found, hfound, hsame⟩ :=
      store.carries_written stamp merge.project (merge.marked tag)
    exact ⟨_, store.findRow?_upsert_self stamp merge.project (merge.marked tag), found, hfound,
      hsame⟩

/-- **One step deals with one tag**, whatever the database refuses. -/
theorem handles_step (h : merge.Knows database.store) (stamp : Stamp) (tag : Tag) :
    merge.Handles database.store tag (merge.step stamp database tag).1
      (merge.step stamp database tag).2.store := by
  have hgo := merge.stepGo stamp database tag
  generalize merge.step stamp database tag = result at hgo ⊢
  cases hgo with
  | keeps hwrite =>
      obtain ⟨hproject, -, hknown⟩ := merge.meet_frame tag
      obtain ⟨row, stored, hrow, hread, hsame⟩ := h.sameFields hwrite
      exact handles_of_meet hproject rfl (List.Subset.refl _) (h.congr hproject hknown)
        (fun _ => rfl) (.inr ⟨row, hrow, stored, hread, hsame⟩)
  | fails => exact handles_conflict h tag _
  | writes hwrite haccepts hread => exact handles_written h stamp tag hread

/-! ## The batch so far -/

/-- A merge accounts for the tags that it has done. -/
structure Accounts (merge : Merge) (store : Store) (done : List Tag) : Prop where
  knows : merge.Knows store
  met : ∀ tag ∈ done, tag.key ∈ merge.met
  settles : store.Settles merge.project done merge.report.errors

variable {done : List Tag}

theorem accounts_start {project : Int} {listed : List StoredTag}
    (hlisted : store.list project = .ok listed) (origin : Origin) :
    (start project origin listed).Accounts store [] where
  knows := knows_start hlisted origin
  met _ htag := by cases htag
  settles _ htag := by cases htag

/-- One more tag. -/
theorem Accounts.snoc (h : merge.Accounts before done)
    (htag : merge.Handles before tag next after) : next.Accounts after (done ++ [tag]) where
  knows := htag.knows
  met := by
    intro other hother
    rw [htag.met]
    rcases List.mem_append.mp hother with hdone | hlast
    · exact List.mem_cons_of_mem _ (h.met other hdone)
    · rw [List.mem_singleton.mp hlast]
      exact List.mem_cons_self
  settles := by
    intro other hother
    rw [htag.project]
    by_cases hkey : other.key = tag.key
    · rw [hkey]
      by_cases hmet : ∃ earlier ∈ done, earlier.key = tag.key
      · -- The key has been met, and reporting it reports all tags that have it.
        obtain ⟨earlier, hearlier, hsame⟩ := hmet
        exact .inl (htag.repeated (hsame ▸ h.met earlier hearlier))
      · have hfresh : ∀ earlier ∈ done, earlier.key ≠ tag.key :=
          fun earlier hearlier hsame => hmet ⟨earlier, hearlier, hsame⟩
        obtain rfl : other = tag := by
          rcases List.mem_append.mp hother with hdone | hlast
          · exact absurd hkey (hfresh other hdone)
          · exact List.mem_singleton.mp hlast
        exact htag.own.imp_right fun hrow => ⟨isAlone_snoc_self hfresh, hrow⟩
    · have hdone : other ∈ done := by
        rcases List.mem_append.mp hother with hdone | hlast
        · exact hdone
        · exact absurd (congrArg Tag.key (List.mem_singleton.mp hlast)) hkey
      refine (h.settles other hdone).imp (·.mono htag.errors) ?_
      rintro ⟨halone, row, hrow, hcarries⟩
      exact ⟨halone.snoc (Ne.symm hkey), row, by rw [htag.others hkey, hrow], hcarries⟩

theorem Accounts.step (h : merge.Accounts database.store done) (stamp : Stamp) (tag : Tag) :
    (merge.step stamp database tag).1.Accounts (merge.step stamp database tag).2.store
      (done ++ [tag]) :=
  h.snoc (handles_step h.knows stamp tag)

/-- Only the rows of the project matter. -/
theorem Accounts.congr {other : Store} (h : merge.Accounts store done)
    (hrows : other.projectRows merge.project = store.projectRows merge.project) :
    merge.Accounts other done where
  knows := by
    have hfind : ∀ key, other.findRow? merge.project key = store.findRow? merge.project key := by
      intro key
      rw [findRow?_eq_find?, hrows, ← findRow?_eq_find?]
    refine ⟨fun hrow => h.knows.of_row ?_, fun hnone => h.knows.of_none ?_⟩
    · rw [← hfind, hrow]
    · rw [← hfind, hnone]
  met := h.met
  settles := h.settles.congr hrows

end Merge

end PlcTags
