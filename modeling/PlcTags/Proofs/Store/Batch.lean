import PlcTags.Proofs.Store.Rows
import PlcTags.Store.Merge

/-!
# What a batch does to the store

A tag that is taken changes the row at its place and no other: afterwards the place
carries the tag, and a row that was there is still the same tag (`Takes`).  Put together
along a batch, the first of several tags with one key gives a new row its name, and the
last one all rows their fields (`TakesAll.snoc`).  `Merged` says the same about the rows
of the store as a whole, without looking anything up.
-/

namespace PlcTags

open Store (Row)

namespace Store

/-! ## Rows and tags -/

/-- A row has the fields of a tag, but perhaps not its name and mark. -/
def Row.Carries (row : Row) (tag : Tag) : Prop :=
  ∃ stored, row.read = .ok stored ∧ Merge.SameFields stored.tag tag

/-- A row is the tag that an older row was. -/
structure Row.Keeps (row old : Row) : Prop where
  id : row.id = old.id
  name : row.name = old.name
  createdAt : row.createdAt = old.createdAt
  isGenerated : row.isGenerated = old.isGenerated

theorem Row.Keeps.refl (row : Row) : row.Keeps row :=
  ⟨rfl, rfl, rfl, rfl⟩

theorem Row.Keeps.trans {first second third : Row} (h : second.Keeps first)
    (h' : third.Keeps second) : third.Keeps first :=
  ⟨h'.id.trans h.id, h'.name.trans h.name, h'.createdAt.trans h.createdAt,
    h'.isGenerated.trans h.isGenerated⟩

/-- What one tag of a batch does to the store. -/
structure Takes (before : Store) (project : Int) (origin : Origin) (tag : Tag)
    (after : Store) : Prop where
  others : ∀ {other key}, ¬ (other = project ∧ key = tag.key) →
    after.findRow? other key = before.findRow? other key
  carried : ∃ row, after.findRow? project tag.key = some row ∧ row.Carries tag
  kept : ∀ {old}, before.findRow? project tag.key = some old →
    ∃ row, after.findRow? project tag.key = some row ∧ row.Keeps old
  created : before.findRow? project tag.key = none →
    ∃ row, after.findRow? project tag.key = some row ∧
      row.name = Text.trimmed tag.name ∧ row.isGenerated = origin.isGenerated

/-- What a batch does to the store. -/
structure TakesAll (before : Store) (project : Int) (origin : Origin) (batch : List Tag)
    (after : Store) : Prop where
  others : ∀ {other key}, ¬ (other = project ∧ key ∈ batch.map Tag.key) →
    after.findRow? other key = before.findRow? other key
  carried : ∀ {key last}, batch.reverse.find? (·.key == key) = some last →
    ∃ row, after.findRow? project key = some row ∧ row.Carries last
  kept : ∀ {key old}, before.findRow? project key = some old →
    ∃ row, after.findRow? project key = some row ∧ row.Keeps old
  created : ∀ {key first}, before.findRow? project key = none →
    batch.find? (·.key == key) = some first →
      ∃ row, after.findRow? project key = some row ∧
        row.name = Text.trimmed first.name ∧ row.isGenerated = origin.isGenerated

variable {store before middle after : Store} {project : Int} {origin : Origin}
  {batch : List Tag} {tag : Tag}

/-! ## One tag -/

theorem Takes.findRow?_of_ne (h : before.Takes project origin tag after) {key : String}
    (hne : key ≠ tag.key) : after.findRow? project key = before.findRow? project key :=
  h.others fun hplace => hne hplace.2

/-- Wherever it stands, a row goes on to be the same tag. -/
theorem Takes.keeps (h : before.Takes project origin tag after) {key : String} {old : Row}
    (hold : before.findRow? project key = some old) :
    ∃ row, after.findRow? project key = some row ∧ row.Keeps old := by
  by_cases hkey : key = tag.key
  · subst hkey
    exact h.kept hold
  · exact ⟨old, by rw [h.findRow?_of_ne hkey, hold], .refl old⟩

/-- The row that a write leaves carries the tag. -/
theorem carries_written (store : Store) (stamp : Stamp) (project : Int) (tag : Tag) :
    (store.written stamp project tag).Carries tag := by
  unfold written
  split
  · exact ⟨_, read_update _ _ _, rfl, rfl, rfl, rfl, rfl, rfl, rfl⟩
  · exact ⟨_, read_ofTag _ _ _, rfl, rfl, rfl, rfl, rfl, rfl, rfl⟩

/-- A write that succeeds does what a batch of one tag does. -/
theorem takes_upsert (store : Store) (stamp : Stamp) (project : Int) (origin : Origin) {tag : Tag}
    (hmark : tag.isGenerated = origin.isGenerated) :
    store.Takes project origin tag (store.upsert stamp project tag) where
  others hne := findRow?_upsert_of_ne hne
  carried := ⟨_, findRow?_upsert_self store stamp project tag, carries_written ..⟩
  kept := by
    intro old hold
    refine ⟨_, findRow?_upsert_self store stamp project tag, ?_⟩
    rw [written, hold]
    exact ⟨rfl, rfl, rfl, rfl⟩
  created := by
    intro hnone
    refine ⟨_, findRow?_upsert_self store stamp project tag, ?_⟩
    rw [written, hnone]
    exact ⟨rfl, hmark⟩

/-- A tag that is already there is taken without a write. -/
theorem takes_of_sameFields {row : Row} {stored : StoredTag}
    (hrow : store.findRow? project tag.key = some row)
    (hread : row.read = .ok stored) (hsame : Merge.SameFields stored.tag tag) :
    store.Takes project origin tag store where
  others _ := rfl
  carried := ⟨row, hrow, stored, hread, hsame⟩
  kept hold := ⟨_, hold, .refl _⟩
  created hnone := by
    rw [hrow] at hnone
    cases hnone

/-! ## Several tags -/

theorem exists_find?_key {batch : List Tag} {key : String} (h : key ∈ batch.map Tag.key) :
    ∃ tag, batch.find? (·.key == key) = some tag := by
  obtain ⟨tag, htag, hsame⟩ := List.mem_map.mp h
  exact Option.isSome_iff_exists.mp (List.find?_isSome.mpr ⟨tag, htag, beq_iff_eq.mpr hsame⟩)

theorem takesAll_nil (store : Store) (project : Int) (origin : Origin) :
    store.TakesAll project origin [] store where
  others _ := rfl
  carried h := by cases h
  kept h := ⟨_, h, .refl _⟩
  created _ h := by cases h

/-- One more tag.  Of the rows that were there before, its own keeps what it was, and all
others stay. -/
theorem TakesAll.snoc (h : before.TakesAll project origin batch middle)
    (htag : middle.Takes project origin tag after) :
    before.TakesAll project origin (batch ++ [tag]) after where
  others := by
    intro other key hplace
    have htag' : ¬ (other = project ∧ key = tag.key) := by
      rintro ⟨rfl, rfl⟩
      exact hplace ⟨rfl, by simp⟩
    have hbatch : ¬ (other = project ∧ key ∈ batch.map Tag.key) := by
      rintro ⟨rfl, hkey⟩
      exact hplace ⟨rfl, by simp_all⟩
    rw [htag.others htag', h.others hbatch]
  carried := by
    intro key last hlast
    rw [List.reverse_append, List.reverse_singleton, List.singleton_append,
      List.find?_cons] at hlast
    -- Seen from its end, the batch begins with the new tag.
    split at hlast
    · rename_i hkey
      obtain rfl := Option.some.inj hlast
      obtain rfl := beq_iff_eq.mp hkey
      exact htag.carried
    · rename_i hkey
      have hne : key ≠ tag.key := by
        rintro rfl
        simp at hkey
      obtain ⟨row, hrow, hcarries⟩ := h.carried hlast
      exact ⟨row, by rw [htag.findRow?_of_ne hne, hrow], hcarries⟩
  kept := by
    intro key old hold
    obtain ⟨row, hrow, hkeeps⟩ := h.kept hold
    obtain ⟨next, hnext, hnextKeeps⟩ := htag.keeps hrow
    exact ⟨next, hnext, hkeeps.trans hnextKeeps⟩
  created := by
    intro key first hnone hfirst
    rw [List.find?_append] at hfirst
    cases hbatch : batch.find? (·.key == key) with
    | some found =>
        rw [hbatch] at hfirst
        obtain rfl := Option.some.inj hfirst
        obtain ⟨row, hrow, hname, hgenerated⟩ := h.created hnone hbatch
        obtain ⟨next, hnext, hkeeps⟩ := htag.keeps hrow
        exact ⟨next, hnext, hkeeps.name.trans hname, hkeeps.isGenerated.trans hgenerated⟩
    | none =>
        rw [hbatch, Option.none_or, List.find?_singleton] at hfirst
        split at hfirst
        · rename_i hkey
          obtain rfl := Option.some.inj hfirst
          obtain rfl := beq_iff_eq.mp hkey
          -- The key has not occurred before, so its place is still empty.
          have hfresh : ¬ (project = project ∧ tag.key ∈ batch.map Tag.key) := by
            rintro ⟨-, hmem⟩
            obtain ⟨other, hother⟩ := exists_find?_key hmem
            rw [hbatch] at hother
            cases hother
          exact htag.created (by rw [h.others hfresh, hnone])
        · cases hfirst

/-! ## The rows after a batch -/

/-- What a batch makes of the rows.  Of the entries with one key the first names a new row,
and the last one decides what the row carries. -/
structure Merged (before : Store) (project : Int) (origin : Origin) (batch : List Tag)
    (after : Store) : Prop where
  /-- No row outside the batch changes, comes or goes. -/
  others : ∀ row : Row, ¬ (row.project = project ∧ row.key ∈ batch.map Tag.key) →
    (row ∈ after.rows ↔ row ∈ before.rows)
  /-- Each key of the batch has exactly one row. -/
  one : ∀ key ∈ batch.map Tag.key, ∃ last row,
    batch.reverse.find? (·.key == key) = some last ∧
      after.rows.filter (fun row => row.IsAt project key) = [row] ∧ row.Carries last
  kept : ∀ old ∈ before.rows, ∃ row ∈ after.rows, row.SamePlace old ∧ row.Keeps old
  created : ∀ row ∈ after.rows, (∀ old ∈ before.rows, ¬ row.SamePlace old) →
    row.project = project ∧ ∃ first, batch.find? (·.key == row.key) = some first ∧
      row.name = Text.trimmed first.name ∧ row.isGenerated = origin.isGenerated

/-- The row that is found at a place is the only one there. -/
theorem filter_isAt_of_findRow? {store : Store} {key : String} {row : Row}
    (h : store.findRow? project key = some row) :
    store.rows.filter (fun row => row.IsAt project key) = [row] := by
  obtain ⟨hrow, hat⟩ := findRow?_eq_some_iff.mp h
  have hmem : ∀ other, other ∈ store.rows.filter (fun row => row.IsAt project key) ↔
      other = row := by
    intro other
    rw [List.mem_filter, decide_eq_true_iff]
    constructor
    · rintro ⟨hother, hotherAt⟩
      exact eq_of_isAt hother hrow hotherAt hat
    · rintro rfl
      exact ⟨hrow, hat⟩
  -- The rows at the place are sorted strictly, and all of them are this one.
  have hsorted := store.sorted.filter (fun row => decide (row.IsAt project key))
  cases hrows : store.rows.filter (fun row => row.IsAt project key) with
  | nil => exact absurd ((hmem row).mpr rfl) (by rw [hrows]; exact List.not_mem_nil)
  | cons first rest =>
      rw [hrows] at hmem hsorted
      obtain rfl := (hmem first).mp List.mem_cons_self
      cases rest with
      | nil => rfl
      | cons second rest =>
          have hsecond : second = first :=
            (hmem second).mp (List.mem_cons_of_mem _ List.mem_cons_self)
          have hprecedes := (List.pairwise_cons.mp hsorted).1 second List.mem_cons_self
          rw [hsecond] at hprecedes
          exact absurd hprecedes (Row.Precedes.irrefl first)

/-- The two ways to say what a batch does agree. -/
theorem TakesAll.merged (h : before.TakesAll project origin batch after) :
    before.Merged project origin batch after where
  others := by
    intro row hplace
    have hfind := h.others hplace
    have hat : row.IsAt row.project row.key := ⟨rfl, rfl⟩
    constructor
    · intro hrow
      exact (findRow?_eq_some_iff.mp (hfind ▸ findRow?_eq_some_iff.mpr ⟨hrow, hat⟩)).1
    · intro hrow
      exact (findRow?_eq_some_iff.mp (hfind.trans (findRow?_eq_some_iff.mpr ⟨hrow, hat⟩))).1
  one := by
    intro key hkey
    rw [← List.mem_reverse, ← List.map_reverse] at hkey
    obtain ⟨last, hlast⟩ := exists_find?_key hkey
    obtain ⟨row, hrow, hcarries⟩ := h.carried hlast
    exact ⟨last, row, hlast, filter_isAt_of_findRow? hrow, hcarries⟩
  kept := by
    intro old hold
    by_cases hproject : old.project = project
    · obtain ⟨row, hrow, hkeeps⟩ := h.kept (findRow?_eq_some_iff.mpr ⟨hold, hproject, rfl⟩)
      obtain ⟨hmem, hat⟩ := findRow?_eq_some_iff.mp hrow
      exact ⟨row, hmem, ⟨hat.1.trans hproject.symm, hat.2⟩, hkeeps⟩
    · have hplace : ¬ (old.project = project ∧ old.key ∈ batch.map Tag.key) :=
        fun hplace => hproject hplace.1
      have hfind := (h.others hplace).trans (findRow?_eq_some_iff.mpr ⟨hold, rfl, rfl⟩)
      exact ⟨old, (findRow?_eq_some_iff.mp hfind).1, ⟨rfl, rfl⟩, .refl old⟩
  created := by
    intro row hrow hfresh
    have hnone : before.findRow? row.project row.key = none := by
      refine findRow?_eq_none_iff.mpr ?_
      intro old hold hat
      exact hfresh old hold ⟨hat.1.symm, hat.2.symm⟩
    -- Only the places of the batch have new rows.
    have hplace : row.project = project ∧ row.key ∈ batch.map Tag.key := by
      refine Decidable.byContradiction ?_
      intro hplace
      have hfind := h.others hplace
      rw [hnone, findRow?_eq_some_iff.mpr ⟨hrow, rfl, rfl⟩] at hfind
      cases hfind
    obtain ⟨hproject, hkey⟩ := hplace
    obtain ⟨first, hfirst⟩ := exists_find?_key hkey
    rw [hproject] at hnone
    obtain ⟨found, hfound, hname, hgenerated⟩ := h.created hnone hfirst
    obtain ⟨hmem, hat⟩ := findRow?_eq_some_iff.mp hfound
    obtain rfl := eq_of_isAt hrow hmem ⟨hproject, rfl⟩ hat
    exact ⟨hproject, first, hfirst, hname, hgenerated⟩

end Store

end PlcTags
