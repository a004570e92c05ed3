import PlcTags.Proofs.Result
import PlcTags.Store.Database

/-!
# Rows of the store

A place of the store, a project and a key, has at most one row, as the rows are
strictly ordered by their places; looking a place up finds this row
(`findRow?_eq_some_iff`).  A write changes one place and no other (`mem_upsert`,
`findRow?_upsert`).  What it leaves there can be read again, because it holds
words of the vocabularies (`read_written`).
-/

namespace PlcTags.Store

/-! ## Places -/

/-- A row stands at the place of a key in a project. -/
def Row.IsAt (row : Row) (project : Int) (key : String) : Prop :=
  row.project = project ∧ row.key = key

instance (row : Row) (project : Int) (key : String) : Decidable (row.IsAt project key) :=
  inferInstanceAs (Decidable (_ ∧ _))

theorem not_samePlace_of_precedes {a b : Row} (h : Row.Precedes a b) : ¬ Row.SamePlace a b := by
  intro hsame
  exact Row.Precedes.irrefl b ((Row.precedes_congr hsame ⟨rfl, rfl⟩).mp h)

/-- No place has two rows. -/
theorem eq_of_isAt {store : Store} {row other : Row} (hrow : row ∈ store.rows)
    (hother : other ∈ store.rows) {project : Int} {key : String} (hat : row.IsAt project key)
    (hotherAt : other.IsAt project key) : row = other := by
  have hforward : store.rows.Pairwise fun a b => Row.SamePlace a b → a = b :=
    store.sorted.imp fun hprecedes hsame => absurd hsame (not_samePlace_of_precedes hprecedes)
  have hbackward : store.rows.Pairwise (flip fun a b => Row.SamePlace a b → a = b) :=
    store.sorted.imp fun hprecedes hsame =>
      absurd ⟨hsame.1.symm, hsame.2.symm⟩ (not_samePlace_of_precedes hprecedes)
  have hunique := List.Pairwise.forall_of_forall_of_flip (fun _ _ _ => rfl) hforward hbackward
  exact hunique hrow hother ⟨hat.1.trans hotherAt.1.symm, hat.2.trans hotherAt.2.symm⟩

/-- The rows of a project are in the order of their keys. -/
theorem pairwise_key_projectRows (store : Store) (project : Int) :
    (store.projectRows project).Pairwise fun a b => a.key < b.key := by
  refine (store.sorted.filter (·.project == project)).imp_of_mem ?_
  intro a b ha hb hprecedes
  have haproject := beq_iff_eq.mp (List.mem_filter.mp ha).2
  have hbproject := beq_iff_eq.mp (List.mem_filter.mp hb).2
  rcases hprecedes with hlt | ⟨-, hlt⟩
  · omega
  · exact hlt

/-- The rows of a project have different keys. -/
theorem pairwise_ne_projectRows (store : Store) (project : Int) :
    (store.projectRows project).Pairwise fun a b => a.key ≠ b.key := by
  refine (store.pairwise_key_projectRows project).imp ?_
  intro a b hlt heq
  rw [heq] at hlt
  exact String.lt_irrefl _ hlt

theorem findRow?_eq_some_iff {store : Store} {project : Int} {key : String} {row : Row} :
    store.findRow? project key = some row ↔ row ∈ store.rows ∧ row.IsAt project key := by
  constructor
  · intro hfind
    have hat := List.find?_some hfind
    simp only [Bool.and_eq_true, beq_iff_eq] at hat
    exact ⟨List.mem_of_find?_eq_some hfind, hat⟩
  · rintro ⟨hrow, hat⟩
    cases hfind : store.findRow? project key with
    | none =>
        have := List.find?_eq_none.mp hfind row hrow
        simp [hat.1, hat.2] at this
    | some other =>
        have hother := List.find?_some hfind
        simp only [Bool.and_eq_true, beq_iff_eq] at hother
        rw [eq_of_isAt hrow (List.mem_of_find?_eq_some hfind) hat hother]

theorem findRow?_eq_none_iff {store : Store} {project : Int} {key : String} :
    store.findRow? project key = none ↔ ∀ row ∈ store.rows, ¬ row.IsAt project key := by
  constructor
  · intro hfind row hrow hat
    rw [findRow?_eq_some_iff.mpr ⟨hrow, hat⟩] at hfind
    cases hfind
  · intro hnone
    cases hfind : store.findRow? project key with
    | none => rfl
    | some row =>
        obtain ⟨hrow, hat⟩ := findRow?_eq_some_iff.mp hfind
        exact absurd hat (hnone row hrow)

/-! ## Writing at a place -/

theorem mem_placed_iff {new row : Row} {rows : List Row} (h : rows.Pairwise Row.Precedes) :
    row ∈ placed new rows ↔ row = new ∨ row ∈ rows ∧ ¬ Row.SamePlace row new := by
  induction rows with
  | nil => simp [placed]
  | cons first rest ih =>
      obtain ⟨hfirst, hrest⟩ := List.pairwise_cons.mp h
      unfold placed
      split
      · rename_i hnew
        -- All rows come after the new one, so none of them gives way.
        have hafter : ∀ other ∈ first :: rest, ¬ Row.SamePlace other new := by
          intro other hother hsame
          have hprecedes : Row.Precedes new other := by
            rcases List.mem_cons.mp hother with rfl | hother
            · exact hnew
            · exact hnew.trans (hfirst other hother)
          exact not_samePlace_of_precedes hprecedes ⟨hsame.1.symm, hsame.2.symm⟩
        rw [List.mem_cons]
        exact or_congr_right ⟨fun hrow => ⟨hrow, hafter row hrow⟩, And.left⟩
      · split
        · rename_i hprecedes
          have hkeep := not_samePlace_of_precedes hprecedes
          rw [List.mem_cons, ih hrest, List.mem_cons]
          constructor
          · rintro (rfl | rfl | ⟨hrow, hplace⟩)
            · exact .inr ⟨.inl rfl, hkeep⟩
            · exact .inl rfl
            · exact .inr ⟨.inr hrow, hplace⟩
          · rintro (rfl | ⟨rfl | hrow, hplace⟩)
            · exact .inr (.inl rfl)
            · exact .inl rfl
            · exact .inr (.inr ⟨hrow, hplace⟩)
        · rename_i hnew hprecedes
          have hsame := Row.samePlace_of_not_precedes hprecedes hnew
          have hafter : ∀ other ∈ rest, ¬ Row.SamePlace other new := by
            intro other hother hplace
            have hprecedes := (Row.precedes_congr hsame ⟨rfl, rfl⟩).mp (hfirst other hother)
            exact not_samePlace_of_precedes hprecedes ⟨hplace.1.symm, hplace.2.symm⟩
          rw [List.mem_cons, List.mem_cons]
          constructor
          · rintro (rfl | hrow)
            · exact .inl rfl
            · exact .inr ⟨.inr hrow, hafter row hrow⟩
          · rintro (rfl | ⟨rfl | hrow, hplace⟩)
            · exact .inl rfl
            · exact absurd hsame hplace
            · exact .inr hrow

theorem isAt_written (store : Store) (stamp : Stamp) (project : Int) (tag : Tag) :
    (store.written stamp project tag).IsAt project tag.key := by
  unfold written
  split
  · rename_i row hfind
    exact (findRow?_eq_some_iff.mp hfind).2
  · exact ⟨rfl, Row.key_ofTag stamp project tag⟩

/-- A write changes the place of its tag only. -/
theorem mem_upsert {store : Store} {stamp : Stamp} {project : Int} {tag : Tag} {row : Row} :
    row ∈ (store.upsert stamp project tag).rows ↔
      row = store.written stamp project tag ∨
        row ∈ store.rows ∧ ¬ row.IsAt project tag.key := by
  have hplace := isAt_written store stamp project tag
  have hiff : Row.SamePlace row (store.written stamp project tag) ↔ row.IsAt project tag.key := by
    unfold Row.SamePlace Row.IsAt
    rw [hplace.1, hplace.2]
  rw [← hiff]
  exact mem_placed_iff store.sorted

theorem findRow?_upsert_self (store : Store) (stamp : Stamp) (project : Int) (tag : Tag) :
    (store.upsert stamp project tag).findRow? project tag.key =
      some (store.written stamp project tag) :=
  findRow?_eq_some_iff.mpr ⟨mem_upsert.mpr (.inl rfl), isAt_written store stamp project tag⟩

theorem findRow?_upsert_of_ne {store : Store} {stamp : Stamp} {project other : Int} {tag : Tag}
    {key : String} (hne : ¬ (other = project ∧ key = tag.key)) :
    (store.upsert stamp project tag).findRow? other key = store.findRow? other key := by
  have hplace : ∀ {row : Row}, row.IsAt other key → ¬ row.IsAt project tag.key := by
    intro row hat hself
    exact hne ⟨hat.1.symm.trans hself.1, hat.2.symm.trans hself.2⟩
  have hmem : ∀ {row : Row}, row.IsAt other key →
      (row ∈ (store.upsert stamp project tag).rows ↔ row ∈ store.rows) := by
    intro row hat
    rw [mem_upsert]
    constructor
    · rintro (rfl | ⟨hrow, -⟩)
      · exact absurd (isAt_written store stamp project tag) (hplace hat)
      · exact hrow
    · intro hrow
      exact .inr ⟨hrow, hplace hat⟩
  cases hfind : store.findRow? other key with
  | none =>
      refine findRow?_eq_none_iff.mpr ?_
      intro row hrow hat
      exact findRow?_eq_none_iff.mp hfind row ((hmem hat).mp hrow) hat
  | some row =>
      obtain ⟨hrow, hat⟩ := findRow?_eq_some_iff.mp hfind
      exact findRow?_eq_some_iff.mpr ⟨(hmem hat).mpr hrow, hat⟩

/-! ## Reading what was written -/

theorem read_dataType_word (dataType : DataType) : DataType.read dataType.word = .ok dataType := by
  have hspelling : looseSpelling dataType.word = dataType.word := by
    cases dataType <;> decide +kernel
  have hword : DataType.ofWord? dataType.word = some dataType := by
    cases dataType <;> decide
  rw [DataType.read, hspelling, hword]

theorem read_scope_word (scope : Scope) : Scope.read scope.word = .ok scope := by
  have hspelling : looseSpelling scope.word = scope.word := by
    cases scope <;> decide +kernel
  have hword : Scope.all.find? (·.names.contains scope.word) = some scope := by
    cases scope <;> decide
  rw [Scope.read, hspelling, hword]

theorem read_category_word (category : Category) :
    Category.read category.word = .ok category := by
  have hspelling : looseSpelling category.word = category.word := by
    cases category <;> decide +kernel
  have hword : Category.ofWord? category.word = some category := by
    cases category <;> decide
  rw [Category.read, hspelling, hword]

theorem read_vendor_word (vendor : Vendor) : Vendor.read vendor.word = .ok vendor := by
  have hspelling : looseSpelling vendor.word = vendor.word := by
    cases vendor <;> decide +kernel
  have hword : Vendor.all.find? (·.names.contains vendor.word) = some vendor := by
    cases vendor <;> decide
  rw [Vendor.read, hspelling, hword]

theorem cell_of_ok {α : Type} {column : Row.Column} {text : String}
    {read : String → Except UnknownWord α} {value : α} (h : read text = .ok value) :
    Row.cell column text read = .ok value := by
  rw [Row.cell, h]

theorem read_update (row : Row) (time : Instant) (tag : Tag) :
    (row.update time tag).read = .ok
      { id := row.id, project := row.project,
        tag := { tag with name := row.name, isGenerated := row.isGenerated },
        createdAt := row.createdAt, updatedAt := time } := by
  unfold Row.read Row.update
  rw [cell_of_ok (read_dataType_word _), cell_of_ok (read_scope_word _),
    cell_of_ok (read_category_word _), cell_of_ok (read_vendor_word _)]
  rfl

theorem read_ofTag (stamp : Stamp) (project : Int) (tag : Tag) :
    (Row.ofTag stamp project tag).read = .ok
      { id := stamp.id, project, tag := { tag with name := Text.trimmed tag.name },
        createdAt := stamp.time, updatedAt := stamp.time } := by
  unfold Row.read Row.ofTag
  rw [cell_of_ok (read_dataType_word _), cell_of_ok (read_scope_word _),
    cell_of_ok (read_category_word _), cell_of_ok (read_vendor_word _)]
  rfl

/-- What a row says beside the words of the vocabularies is read as it stands. -/
theorem of_read_eq_ok {row : Row} {stored : StoredTag} (h : row.read = .ok stored) :
    ∃ dataType scope category vendor, stored =
      { id := row.id, project := row.project,
        tag :=
          { name := row.name, dataType, address := row.address, scope, category,
            defaultValue := row.defaultValue, description := row.description, vendor,
            isGenerated := row.isGenerated },
        createdAt := row.createdAt, updatedAt := row.updatedAt } := by
  unfold Row.read at h
  obtain ⟨dataType, -, h⟩ := exists_of_bind_eq_ok h
  obtain ⟨scope, -, h⟩ := exists_of_bind_eq_ok h
  obtain ⟨category, -, h⟩ := exists_of_bind_eq_ok h
  obtain ⟨vendor, -, h⟩ := exists_of_bind_eq_ok h
  exact ⟨dataType, scope, category, vendor, (Except.ok.inj h).symm⟩

theorem key_of_read {row : Row} {stored : StoredTag} (h : row.read = .ok stored) :
    stored.tag.key = row.key := by
  obtain ⟨dataType, scope, category, vendor, rfl⟩ := of_read_eq_ok h
  exact row.key_eq.symm

end PlcTags.Store
