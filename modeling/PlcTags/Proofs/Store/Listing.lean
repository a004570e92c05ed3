import PlcTags.Proofs.Store.Merge

/-!
# What a project lists

The tags that a project lists are those of its rows, one for each, in the order of their
keys (`sorted_key_of_list`), and no key stands among them twice (`pairwise_key_of_list`).
So a merge that begins with them knows each by its key (`Merge.lookup_start`), and looking
a name up finds the one tag among them that has its key (`find_of_list`).
-/

namespace PlcTags

namespace Store

variable {store : Store} {project : Int} {stored : List StoredTag}

theorem keys_of_mapM {rows : List Row} (h : rows.mapM Row.read = .ok stored) :
    stored.map (·.tag.key) = rows.map Row.key := by
  induction rows generalizing stored with
  | nil =>
      obtain rfl := Except.ok.inj h
      rfl
  | cons row rows ih =>
      obtain ⟨first, others, hfirst, hothers, rfl⟩ := mapM_cons_eq_ok h
      rw [List.map_cons, List.map_cons, ih hothers, key_of_read hfirst]

/-- No key is listed twice. -/
theorem pairwise_key_of_list (h : store.list project = .ok stored) :
    stored.Pairwise fun a b => a.tag.key ≠ b.tag.key := by
  have hrows : ((store.projectRows project).map Row.key).Pairwise (· ≠ ·) :=
    List.pairwise_map.mpr (store.pairwise_ne_projectRows project)
  rw [← keys_of_mapM h] at hrows
  exact List.pairwise_map.mp hrows

theorem exists_row_of_mapM {rows : List Row} (h : rows.mapM Row.read = .ok stored)
    {listed : StoredTag} (hlisted : listed ∈ stored) :
    ∃ row ∈ rows, row.read = .ok listed := by
  induction rows generalizing stored with
  | nil =>
      obtain rfl := Except.ok.inj h
      cases hlisted
  | cons row rows ih =>
      obtain ⟨first, others, hfirst, hothers, rfl⟩ := mapM_cons_eq_ok h
      rcases List.mem_cons.mp hlisted with rfl | hmem
      · exact ⟨row, List.mem_cons_self, hfirst⟩
      · obtain ⟨found, hfound, hread⟩ := ih hothers hmem
        exact ⟨found, List.mem_cons_of_mem _ hfound, hread⟩

/-- What is listed stands in a row. -/
theorem exists_row_of_list (h : store.list project = .ok stored) {listed : StoredTag}
    (hlisted : listed ∈ stored) : ∃ row ∈ store.rows, row.read = .ok listed := by
  obtain ⟨row, hrow, hread⟩ := exists_row_of_mapM h hlisted
  exact ⟨row, (List.mem_filter.mp hrow).1, hread⟩

theorem exists_read_of_mapM {rows : List Row} (h : rows.mapM Row.read = .ok stored) {row : Row}
    (hrow : row ∈ rows) : ∃ listed, row.read = .ok listed := by
  induction rows generalizing stored with
  | nil => cases hrow
  | cons head rows ih =>
      obtain ⟨first, others, hfirst, hothers, -⟩ := mapM_cons_eq_ok h
      rcases List.mem_cons.mp hrow with rfl | hrest
      · exact ⟨first, hfirst⟩
      · exact ih hothers hrest

/-- All rows of a project that is listed can be read. -/
theorem exists_read_of_list (h : store.list project = .ok stored) {row : Row}
    (hrow : row ∈ store.rows) (hproject : row.project = project) :
    ∃ listed, row.read = .ok listed :=
  exists_read_of_mapM h (List.mem_filter.mpr ⟨hrow, beq_iff_eq.mpr hproject⟩)

theorem mem_of_mapM {rows : List Row} (h : rows.mapM Row.read = .ok stored) {row : Row}
    (hrow : row ∈ rows) {listed : StoredTag} (hread : row.read = .ok listed) :
    listed ∈ stored := by
  induction rows generalizing stored with
  | nil => cases hrow
  | cons head rows ih =>
      obtain ⟨first, others, hfirst, hothers, rfl⟩ := mapM_cons_eq_ok h
      rcases List.mem_cons.mp hrow with rfl | hrest
      · rw [hfirst] at hread
        exact List.mem_cons.mpr (.inl (Except.ok.inj hread).symm)
      · exact List.mem_cons_of_mem _ (ih hothers hrest)

/-- A row that can be read is listed. -/
theorem mem_of_list (h : store.list project = .ok stored) {row : Row} (hrow : row ∈ store.rows)
    (hproject : row.project = project) {listed : StoredTag} (hread : row.read = .ok listed) :
    listed ∈ stored :=
  mem_of_mapM h (List.mem_filter.mpr ⟨hrow, beq_iff_eq.mpr hproject⟩) hread

/-- **A project lists its tags in the order of their keys.** -/
theorem sorted_key_of_list (h : store.list project = .ok stored) :
    stored.Pairwise fun a b => a.tag.key < b.tag.key := by
  have hrows : ((store.projectRows project).map Row.key).Pairwise (· < ·) :=
    List.pairwise_map.mpr (store.pairwise_key_projectRows project)
  rw [← keys_of_mapM h] at hrows
  exact List.pairwise_map.mp hrows

/-- What is listed and has the same key is the same. -/
theorem eq_of_key_of_list (h : store.list project = .ok stored) {listed other : StoredTag}
    (hlisted : listed ∈ stored) (hother : other ∈ stored)
    (hkey : listed.tag.key = other.tag.key) : listed = other := by
  have hdistinct : stored.Pairwise fun a b => a.tag.key = b.tag.key → a = b :=
    (pairwise_key_of_list h).imp fun hne heq => absurd heq hne
  have hturned : stored.Pairwise (flip fun a b => a.tag.key = b.tag.key → a = b) :=
    (pairwise_key_of_list h).imp fun hne heq => absurd heq.symm hne
  exact List.Pairwise.forall_of_forall_of_flip (fun _ _ _ => rfl) hdistinct hturned hlisted hother
    hkey

/-- **A name that is looked up finds the listed tag with its key**, and nothing if there is
none. -/
theorem find_of_list (h : store.list project = .ok stored) (name : String) :
    ∃ found, store.find project name = .ok found ∧
      ∀ listed, found = some listed ↔ listed ∈ stored ∧ listed.tag.key = nameKey name := by
  cases hrow : store.findRow? project (nameKey name) with
  | none =>
      refine ⟨none, by rw [find, hrow], fun listed => ⟨nofun, ?_⟩⟩
      rintro ⟨hlisted, hkey⟩
      obtain ⟨row, hmem, hread⟩ := exists_row_of_mapM h hlisted
      obtain ⟨hmem, hproject⟩ := List.mem_filter.mp hmem
      exact absurd ⟨beq_iff_eq.mp hproject, (key_of_read hread).symm.trans hkey⟩
        (findRow?_eq_none_iff.mp hrow row hmem)
  | some row =>
      obtain ⟨hmem, hproject, hkey⟩ := findRow?_eq_some_iff.mp hrow
      obtain ⟨listed, hread⟩ := exists_read_of_list h hmem hproject
      have hlisted := mem_of_list h hmem hproject hread
      have hkey := (key_of_read hread).trans hkey
      refine ⟨some listed, by simp only [find, hrow, hread]; rfl, fun other => ?_⟩
      rw [Option.some.injEq]
      constructor
      · rintro rfl
        exact ⟨hlisted, hkey⟩
      · rintro ⟨hother, hotherKey⟩
        exact eq_of_key_of_list h hlisted hother (hkey.trans hotherKey.symm)

theorem exists_mapM_read {rows : List Row} (h : ∀ row ∈ rows, ∃ listed, row.read = .ok listed) :
    ∃ stored, rows.mapM Row.read = .ok stored := by
  induction rows with
  | nil => exact ⟨[], rfl⟩
  | cons row rows ih =>
      obtain ⟨listed, hread⟩ := h row List.mem_cons_self
      obtain ⟨others, hothers⟩ := ih fun other hother => h other (List.mem_cons_of_mem _ hother)
      refine ⟨listed :: others, ?_⟩
      rw [List.mapM_cons, hread, hothers]
      rfl

/-- A project is listed if its rows can be read. -/
theorem exists_list_of_projectRows
    (h : ∀ row ∈ store.projectRows project, ∃ listed, row.read = .ok listed) :
    ∃ stored, store.list project = .ok stored :=
  exists_mapM_read h

theorem exists_list (h : ∀ row ∈ store.rows, ∃ listed, row.read = .ok listed) :
    ∃ stored, store.list project = .ok stored :=
  exists_list_of_projectRows fun row hrow => h row (List.mem_filter.mp hrow).1

end Store

/-- A merge knows what has been listed by its key. -/
theorem Merge.lookup_start {stored : List StoredTag}
    (hdistinct : stored.Pairwise fun a b => a.tag.key ≠ b.tag.key) {listed : StoredTag}
    (hlisted : listed ∈ stored) (project : Int) (origin : Origin) :
    (start project origin stored).known.lookup listed.tag.key = some listed.tag := by
  obtain ⟨front, back, rfl⟩ := List.append_of_mem hlisted
  obtain ⟨-, hback, -⟩ := List.pairwise_append.mp hdistinct
  -- The list is turned round, so what stands behind the entry comes before it.
  refine List.lookup_eq_some_iff.mpr
    ⟨(back.map fun stored => (stored.tag.key, stored.tag)).reverse,
      (front.map fun stored => (stored.tag.key, stored.tag)).reverse, by simp [start], ?_⟩
  intro pair hpair
  obtain ⟨other, hother, rfl⟩ := List.mem_map.mp (List.mem_reverse.mp hpair)
  exact bne_iff_ne.mpr ((List.pairwise_cons.mp hback).1 other hother)

end PlcTags
