import Mathlib.Data.List.Sort
import PlcTags.Proofs.Store.Merge

/-!
# Stores that agree on a project

Two stores agree on a project if they have the same rows there but for the stamps: the
identifiers and the times.  What a merge makes of a tag does not depend on stamps, so a
merge that goes on in two stores which agree on its project stays the same merge, and the
stores agree as before (`agreeOn_step`).  A merge of another project leaves the rows alone
(`findRow?_step_of_ne`).

What a merge knows of a single key is right as long as nobody else writes to this key, whatever
happens to the other keys of the project.  A tag leaves all keys alone but its own
(`KnowsAt.step_of_ne`), and if its write does not fail, the row of its key carries it
(`KnowsAt.step_self`).
-/

namespace PlcTags

open Store (Row)

namespace Store

/-! ## Rows without stamps -/

/-- What a row says beside its stamps. -/
def Row.unstamped (row : Row) : Row :=
  let stamp := Supply.stamp {}
  { row with id := stamp.id, createdAt := stamp.time, updatedAt := stamp.time }

/-- The stores have the same rows in a project, but for the stamps. -/
def AgreeOn (project : Int) (store other : Store) : Prop :=
  ∀ key, (store.findRow? project key).map Row.unstamped =
    (other.findRow? project key).map Row.unstamped

variable {store other : Store} {project : Int} {key : String} {row : Row}

theorem AgreeOn.refl (store : Store) : AgreeOn project store store :=
  fun _ => rfl

theorem AgreeOn.symm (h : AgreeOn project store other) : AgreeOn project other store :=
  fun key => (h key).symm

theorem AgreeOn.trans {third : Store} (h : AgreeOn project store other)
    (h' : AgreeOn project other third) : AgreeOn project store third :=
  fun key => (h key).trans (h' key)

theorem AgreeOn.isSome (h : AgreeOn project store other) (key : String) :
    (store.findRow? project key).isSome = (other.findRow? project key).isSome := by
  have hkey := congrArg Option.isSome (h key)
  rwa [Option.isSome_map, Option.isSome_map] at hkey

/-- The tag of a row does not tell its stamps. -/
theorem read_unstamped (row : Row) :
    row.unstamped.read.map StoredTag.tag = row.read.map StoredTag.tag := by
  unfold Row.read Row.unstamped
  cases Row.cell .dataType row.dataType DataType.read <;>
    cases Row.cell .scope row.scope Scope.read <;>
    cases Row.cell .category row.category Category.read <;>
    cases Row.cell .vendor row.vendor Vendor.read <;> rfl

theorem unstamped_update {row other : Row} (h : row.unstamped = other.unstamped)
    (time time' : Instant) (tag : Tag) :
    (row.update time tag).unstamped = (other.update time' tag).unstamped := by
  simp only [Row.unstamped, Row.mk.injEq] at h
  obtain ⟨-, hproject, hname, hkey, -, -, -, -, -, -, -, hgenerated, -⟩ := h
  simp only [Row.unstamped, Row.update, hname, hkey, hproject, hgenerated]

/-- The row that a write makes is the same but for its stamps. -/
theorem AgreeOn.written (h : AgreeOn project store other) (stamp stamp' : Stamp) (tag : Tag) :
    (store.written stamp project tag).unstamped = (other.written stamp' project tag).unstamped := by
  have hkey := h tag.key
  unfold Store.written
  cases hrow : store.findRow? project tag.key with
  | none =>
      rw [hrow] at hkey
      rw [Option.map_eq_none_iff.mp hkey.symm]
      rfl
  | some row =>
      rw [hrow] at hkey
      obtain ⟨found, hfound, hsame⟩ := Option.map_eq_some_iff.mp hkey.symm
      rw [hfound]
      exact unstamped_update hsame.symm _ _ tag

theorem AgreeOn.upsert (h : AgreeOn project store other) (stamp stamp' : Stamp) (tag : Tag) :
    AgreeOn project (store.upsert stamp project tag) (other.upsert stamp' project tag) := by
  intro key
  by_cases hkey : key = tag.key
  · subst hkey
    rw [findRow?_upsert_self, findRow?_upsert_self, Option.map_some, Option.map_some,
      h.written stamp stamp' tag]
  · have hplace : ¬ (project = project ∧ key = tag.key) := fun hplace => hkey hplace.2
    rw [findRow?_upsert_of_ne hplace, findRow?_upsert_of_ne hplace]
    exact h key

theorem agreeOn_of_findRow? (h : ∀ key, store.findRow? project key = other.findRow? project key) :
    AgreeOn project store other :=
  fun key => congrArg (Option.map Row.unstamped) (h key)

/-! ## Lists of rows -/

theorem agreeOn_of_projectRows (h : store.projectRows project = other.projectRows project) :
    AgreeOn project store other := by
  apply agreeOn_of_findRow?
  intro key
  rw [Merge.findRow?_eq_find?, Merge.findRow?_eq_find?, h]

theorem mem_projectRows_iff :
    row ∈ store.projectRows project ↔ store.findRow? project row.key = some row := by
  rw [projectRows, List.mem_filter, findRow?_eq_some_iff, beq_iff_eq]
  exact and_congr_right fun _ => ⟨fun hproject => ⟨hproject, rfl⟩, And.left⟩

theorem mem_unstamped_of_agreeOn (h : AgreeOn project store other)
    (hrow : row ∈ (store.projectRows project).map Row.unstamped) :
    row ∈ (other.projectRows project).map Row.unstamped := by
  obtain ⟨old, hold, rfl⟩ := List.mem_map.mp hrow
  have hkey := h old.key
  rw [mem_projectRows_iff.mp hold] at hkey
  obtain ⟨found, hfound, hsame⟩ := Option.map_eq_some_iff.mp hkey.symm
  rw [← hsame]
  refine List.mem_map_of_mem (mem_projectRows_iff.mpr ?_)
  rw [(findRow?_eq_some_iff.mp hfound).2.2]
  exact hfound

/-- **Stores that agree on a project have the same rows there, but for the stamps**, in the
same order. -/
theorem AgreeOn.projectRows (h : AgreeOn project store other) :
    (store.projectRows project).map Row.unstamped =
      (other.projectRows project).map Row.unstamped := by
  have hsorted : ∀ store : Store, ((store.projectRows project).map Row.unstamped).Pairwise
      fun a b => a.key < b.key :=
    fun store => (pairwise_key_projectRows store project).map _ fun _ _ hlt => hlt
  have hirrefl : Std.Irrefl fun a b : Row => a.key < b.key :=
    ⟨fun row => String.lt_irrefl row.key⟩
  refine (hsorted store).eq_of_mem_iff (hsorted other) ?_
  intro row
  exact ⟨mem_unstamped_of_agreeOn h, mem_unstamped_of_agreeOn h.symm⟩

/-- Reading rows that differ in their stamps gives tags that do not differ, or fails
alike. -/
theorem mapM_read_of_unstamped {rows others : List Row}
    (h : rows.map Row.unstamped = others.map Row.unstamped) :
    (rows.mapM Row.read).map (List.map StoredTag.tag) =
      (others.mapM Row.read).map (List.map StoredTag.tag) := by
  induction rows generalizing others with
  | nil =>
      obtain rfl := List.map_eq_nil_iff.mp h.symm
      rfl
  | cons row rows ih =>
      obtain ⟨first, rest, rfl, hfirst, hrest⟩ := List.map_eq_cons_iff.mp h.symm
      have hread : row.read.map StoredTag.tag = first.read.map StoredTag.tag := by
        rw [← read_unstamped row, ← hfirst, read_unstamped]
      have hothers := ih hrest.symm
      rw [List.mapM_cons, List.mapM_cons]
      -- The two first rows are read alike, so only two of the four cases are left.
      cases hrow : row.read with
      | error failure =>
          cases hother : first.read with
          | error other =>
              rw [hrow, hother] at hread
              obtain rfl := Except.error.inj hread
              rfl
          | ok other =>
              rw [hrow, hother] at hread
              cases hread
      | ok stored =>
          cases hother : first.read with
          | error other =>
              rw [hrow, hother] at hread
              cases hread
          | ok other =>
              rw [hrow, hother] at hread
              have htag : stored.tag = other.tag := Except.ok.inj hread
              cases hlist : rows.mapM Row.read <;> cases hlist' : rest.mapM Row.read <;>
                rw [hlist, hlist'] at hothers
              · exact congrArg Except.error (Except.error.inj hothers)
              · cases hothers
              · cases hothers
              · exact congrArg Except.ok (List.cons_eq_cons.mpr ⟨htag, Except.ok.inj hothers⟩)

/-- The tags of a project are the same, and so is the reason why they cannot be read. -/
theorem AgreeOn.list (h : AgreeOn project store other) :
    (store.list project).map (List.map StoredTag.tag) =
      (other.list project).map (List.map StoredTag.tag) :=
  mapM_read_of_unstamped h.projectRows

end Store

/-! ## Merges -/

namespace Merge

open Store (AgreeOn)

/-- A merge begins with the tags that are stored, whatever their stamps. -/
theorem start_congr {stored listed : List StoredTag}
    (h : stored.map StoredTag.tag = listed.map StoredTag.tag) (project : Int) (origin : Origin) :
    start project origin stored = start project origin listed := by
  have hpairs : stored.map (fun stored => (stored.tag.key, stored.tag)) =
      listed.map fun stored => (stored.tag.key, stored.tag) := by
    have hmap := congrArg (List.map fun tag : Tag => (tag.key, tag)) h
    rwa [List.map_map, List.map_map] at hmap
  simp only [start, hpairs]

/-- What a merge takes from the answer to a write is the tag, or the failure. -/
theorem wrote_congr (merge : Merge) (tag : Tag) {answer other : Except Failure StoredTag}
    (h : answer.map StoredTag.tag = other.map StoredTag.tag) :
    merge.wrote tag answer = merge.wrote tag other := by
  cases answer <;> cases other
  · exact congrArg (fun failure => merge.note (conflict tag.name failure)) (Except.error.inj h)
  · cases h
  · cases h
  · simp only [wrote, Except.ok.inj h]

variable {merge : Merge} {database other : Database}

theorem upsertResult_congr (h : AgreeOn merge.project database.store other.store) {tag : Tag}
    (haccess : database.writeFailure? tag.name = other.writeFailure? tag.name)
    (stamp stamp' : Stamp) :
    (database.upsertResult stamp merge.project tag).map StoredTag.tag =
      (other.upsertResult stamp' merge.project tag).map StoredTag.tag := by
  unfold Database.upsertResult
  rw [haccess]
  cases other.writeFailure? tag.name with
  | some failure => rfl
  | none =>
      show (Store.Row.read _).map StoredTag.tag = (Store.Row.read _).map StoredTag.tag
      rw [← Store.read_unstamped, h.written stamp stamp' tag, Store.read_unstamped]

/-- **A tag is merged in the same way** into two stores that agree on the project of the
merge, if both refuse it or neither does, and they agree on the project after it. -/
theorem agreeOn_step (h : AgreeOn merge.project database.store other.store) (tag : Tag)
    (haccess : ∀ name, database.writeFailure? name = other.writeFailure? name)
    (stamp stamp' : Stamp) :
    (merge.step stamp database tag).1 = (merge.step stamp' other tag).1 ∧
      AgreeOn merge.project (merge.step stamp database tag).2.store
        (merge.step stamp' other tag).2.store := by
  cases hwrite : merge.needsWrite tag with
  | false =>
      rw [step_of_not_needsWrite hwrite, step_of_not_needsWrite hwrite]
      exact ⟨rfl, h⟩
  | true =>
      rw [step_of_needsWrite hwrite, step_of_needsWrite hwrite]
      refine ⟨wrote_congr _ _ (upsertResult_congr h (haccess _) stamp stamp'), ?_⟩
      simp only [Database.upsert, haccess]
      cases other.writeFailure? (merge.marked tag).name with
      | some failure => exact h
      | none => exact h.upsert stamp stamp' (merge.marked tag)

/-- A merge of one project leaves the rows of another one. -/
theorem findRow?_step_of_ne {project : Int} (hne : project ≠ merge.project) (stamp : Stamp)
    (database : Database) (tag : Tag) (key : String) :
    (merge.step stamp database tag).2.store.findRow? project key =
      database.store.findRow? project key := by
  have hgo := merge.stepGo stamp database tag
  generalize merge.step stamp database tag = result at hgo ⊢
  cases hgo with
  | keeps | fails => rfl
  | writes => exact Store.findRow?_upsert_of_ne fun hplace => hne hplace.1

/-- What a merge knows does not depend on stamps. -/
theorem Knows.of_agreeOn {store other : Store} (h : merge.Knows store)
    (hagree : AgreeOn merge.project other store) : merge.Knows other := by
  constructor
  · intro key row hrow
    have hkey := hagree key
    rw [hrow] at hkey
    obtain ⟨found, hfound, hsame⟩ := Option.map_eq_some_iff.mp hkey.symm
    obtain ⟨stored, hread, hlookup⟩ := h.of_row hfound
    have htags : row.read.map StoredTag.tag = .ok stored.tag := by
      rw [← Store.read_unstamped, ← hsame, Store.read_unstamped, hread]
      rfl
    obtain ⟨own, hown, htag⟩ := exists_of_map_eq_ok htags
    exact ⟨own, hown, by rw [htag]; exact hlookup⟩
  · intro key hnone
    have hkey := hagree key
    rw [hnone] at hkey
    exact h.of_none (Option.map_eq_none_iff.mp hkey.symm)

/-! ## New rows -/

theorem inserted_meet (merge : Merge) (tag : Tag) :
    (merge.meet tag).report.inserted = merge.report.inserted := by
  unfold meet
  split <;> rfl

/-- A merge has counted one more new tag, with this key. -/
structure Inserts (merge : Merge) (store : Store) (key : String) (later : Merge) (after : Store) :
    Prop where
  counted : later.report.inserted = merge.report.inserted + 1
  absent : store.findRow? merge.project key = none
  present : (after.findRow? merge.project key).isSome = true
  others : ∀ {other}, other ≠ key →
    after.findRow? merge.project other = store.findRow? merge.project other

/-- A merge has not counted a new tag, and there is none. -/
structure InsertsNone (merge : Merge) (store : Store) (later : Merge) (after : Store) :
    Prop where
  counted : later.report.inserted = merge.report.inserted
  present : ∀ key, (after.findRow? merge.project key).isSome =
    (store.findRow? merge.project key).isSome

/-- **A merge counts what it inserts**: a tag is counted as new just when its key had no row
before and has one now. -/
theorem inserts_or_none (h : merge.Knows database.store) (stamp : Stamp) (tag : Tag) :
    merge.Inserts database.store tag.key (merge.step stamp database tag).1
        (merge.step stamp database tag).2.store ∨
      merge.InsertsNone database.store (merge.step stamp database tag).1
        (merge.step stamp database tag).2.store := by
  have hgo := merge.stepGo stamp database tag
  generalize merge.step stamp database tag = result at hgo ⊢
  cases hgo with
  | keeps | fails => exact .inr ⟨inserted_meet merge tag, fun _ => rfl⟩
  | writes hwrite haccepts hread =>
      have hself : (database.store.upsert stamp merge.project (merge.marked tag)).findRow?
          merge.project tag.key = some _ := Store.findRow?_upsert_self ..
      have hothers : ∀ {other}, other ≠ tag.key →
          (database.store.upsert stamp merge.project (merge.marked tag)).findRow?
            merge.project other = database.store.findRow? merge.project other :=
        fun hne => Store.findRow?_upsert_of_ne fun hplace => hne hplace.2
      have hknown : (merge.meet tag).known.lookup (merge.marked tag).key =
          merge.known.lookup tag.key :=
        congrArg (List.lookup tag.key) (merge.meet_frame tag).2.2
      -- The count goes by what the merge knows, and the merge knows which rows there are.
      cases hrow : database.store.findRow? merge.project tag.key with
      | none =>
          left
          refine ⟨?_, hrow, congrArg Option.isSome hself, hothers⟩
          simp only [wrote, hknown, h.of_none hrow]
          exact congrArg (· + 1) (inserted_meet merge tag)
      | some row =>
          right
          obtain ⟨found, -, hlookup⟩ := h.of_row hrow
          refine ⟨?_, ?_⟩
          · simp only [wrote, hknown, hlookup]
            exact inserted_meet merge tag
          · intro key
            by_cases hkey : key = tag.key
            · rw [hkey, hrow, hself]
              rfl
            · rw [hothers hkey]

end Merge

/-- Of the keys of a project these are the ones that have come with a row since. -/
structure Store.Gains (first : Store) (project : Int) (keys : List String) (store : Store) :
    Prop where
  nodup : keys.Nodup
  kept : ∀ {key}, (first.findRow? project key).isSome = true →
    (store.findRow? project key).isSome = true
  mem_iff : ∀ {key}, key ∈ keys ↔
    first.findRow? project key = none ∧ (store.findRow? project key).isSome = true

namespace Store.Gains

variable {first store after : Store} {project : Int} {keys : List String} {key : String}
  {merge later : Merge}

theorem nil (store : Store) (project : Int) : store.Gains project [] store where
  nodup := List.nodup_nil
  kept := id
  mem_iff := by
    intro key
    refine iff_of_false List.not_mem_nil ?_
    rintro ⟨hnone, hsome⟩
    rw [hnone] at hsome
    cases hsome

/-- It is only the keys with rows that count. -/
theorem congr (h : first.Gains project keys store)
    (hsame : ∀ key, (after.findRow? project key).isSome = (store.findRow? project key).isSome) :
    first.Gains project keys after where
  nodup := h.nodup
  kept hkey := (hsame _).trans (h.kept hkey)
  mem_iff := by
    intro key
    rw [hsame key]
    exact h.mem_iff

theorem inserts (h : first.Gains merge.project keys store)
    (hinserts : merge.Inserts store key later after) :
    first.Gains merge.project (keys ++ [key]) after := by
  -- A key without a row now had none at first.
  have hfirst : first.findRow? merge.project key = none := by
    cases hrow : first.findRow? merge.project key with
    | none => rfl
    | some row =>
        have hkept : (store.findRow? merge.project key).isSome = true :=
          h.kept (by rw [hrow]; rfl)
        rw [hinserts.absent] at hkept
        cases hkept
  have hnew : key ∉ keys := by
    intro hmem
    have hrow := (h.mem_iff.mp hmem).2
    rw [hinserts.absent] at hrow
    cases hrow
  refine ⟨List.nodup_append_comm.mp (List.nodup_cons.mpr ⟨hnew, h.nodup⟩), ?_, ?_⟩
  · intro other hother
    by_cases hkey : other = key
    · rw [hkey]
      exact hinserts.present
    · rw [hinserts.others hkey]
      exact h.kept hother
  · intro other
    rw [List.mem_append, List.mem_singleton]
    by_cases hkey : other = key
    · subst hkey
      exact iff_of_true (.inr rfl) ⟨hfirst, hinserts.present⟩
    · rw [or_iff_left hkey, hinserts.others hkey]
      exact h.mem_iff

end Store.Gains

end PlcTags

/-! ## One key of a merge -/

namespace PlcTags.Merge

open Store (Row)

/-- A merge's picture of one key is right. -/
structure KnowsAt (merge : Merge) (store : Store) (key : String) : Prop where
  of_row : ∀ {row}, store.findRow? merge.project key = some row →
    ∃ stored, row.read = .ok stored ∧ merge.known.lookup key = some stored.tag
  of_none : store.findRow? merge.project key = none → merge.known.lookup key = none

variable {merge other : Merge} {store after : Store} {database : Database} {key : String}
  {tag : Tag}

theorem Knows.at_key (h : merge.Knows store) (key : String) : merge.KnowsAt store key :=
  ⟨h.of_row, h.of_none⟩

/-- The picture is only about the row and the entry of the key. -/
theorem KnowsAt.congr (h : merge.KnowsAt store key)
    (hrow : after.findRow? other.project key = store.findRow? merge.project key)
    (hknown : other.known.lookup key = merge.known.lookup key) : other.KnowsAt after key := by
  constructor
  · intro row hfound
    rw [hrow] at hfound
    rw [hknown]
    exact h.of_row hfound
  · intro hnone
    rw [hrow] at hnone
    rw [hknown]
    exact h.of_none hnone

/-- A tag leaves the other keys alone. -/
theorem KnowsAt.step_of_ne (h : merge.KnowsAt database.store key) (hne : key ≠ tag.key)
    (stamp : Stamp) :
    (merge.step stamp database tag).2.store.findRow? merge.project key =
        database.store.findRow? merge.project key ∧
      (merge.step stamp database tag).1.KnowsAt (merge.step stamp database tag).2.store key := by
  obtain ⟨hproject, -, hknown⟩ := merge.meet_frame tag
  have hsame : (merge.step stamp database tag).2.store.findRow? merge.project key =
        database.store.findRow? merge.project key ∧
      (merge.step stamp database tag).1.known.lookup key = merge.known.lookup key := by
    have hgo := merge.stepGo stamp database tag
    generalize merge.step stamp database tag = result at hgo ⊢
    cases hgo with
    | keeps | fails => exact ⟨rfl, congrArg (List.lookup key) hknown⟩
    | writes hwrite haccepts hread =>
        refine ⟨Store.findRow?_upsert_of_ne fun hplace => hne hplace.2, ?_⟩
        have hbeq : (key == tag.key) = false := beq_false_of_ne hne
        rw [known_wrote_ok, List.lookup_cons, hbeq]
  refine ⟨hsame.1, h.congr ?_ hsame.2⟩
  rw [(merge.step_frame stamp database tag).1]
  exact hsame.1

/-- After a tag its key is known, and carries the tag unless a write of the merge fails. -/
theorem KnowsAt.step_self (h : merge.KnowsAt database.store tag.key) (stamp : Stamp) :
    (merge.step stamp database tag).1.KnowsAt (merge.step stamp database tag).2.store tag.key ∧
      ((merge.step stamp database tag).1.Succeeds →
        ∃ row, (merge.step stamp database tag).2.store.findRow? merge.project tag.key = some row ∧
          row.Carries tag) := by
  obtain ⟨hproject, -, hknown⟩ := merge.meet_frame tag
  have hsame := congrArg (database.store.findRow? · tag.key) hproject
  have hkept := congrArg (List.lookup tag.key) hknown
  have hgo := merge.stepGo stamp database tag
  generalize merge.step stamp database tag = result at hgo ⊢
  cases hgo with
  | keeps hwrite =>
      refine ⟨h.congr hsame hkept, fun _ => ?_⟩
      cases hrow : database.store.findRow? merge.project tag.key with
      | none =>
          rw [needsWrite, h.of_none hrow] at hwrite
          cases hwrite
      | some row =>
          obtain ⟨stored, hread, hlookup⟩ := h.of_row hrow
          rw [needsWrite, hlookup] at hwrite
          exact ⟨row, rfl, stored, hread, by simpa using hwrite⟩
  | fails =>
      refine ⟨h.congr hsame hkept, fun hsucceeds => ?_⟩
      -- The failure is in the report.
      obtain ⟨-, stored, hstored⟩ := succeeds_of_wrote hsucceeds
      cases hstored
  | @writes stored hwrite haccepts hread =>
      have hrow := database.store.findRow?_upsert_self stamp merge.project (merge.marked tag)
      have hself : (database.store.upsert stamp merge.project (merge.marked tag)).findRow?
          (merge.meet tag).project tag.key = some _ :=
        (congrArg (Store.findRow? _ · tag.key) hproject).trans hrow
      refine ⟨⟨?_, ?_⟩, fun _ => ⟨_, hrow, ?_⟩⟩
      · intro row hrow
        obtain rfl := Option.some.inj (hself.symm.trans hrow)
        exact ⟨stored, hread, List.lookup_cons_self⟩
      · intro hnone
        cases hself.symm.trans hnone
      · exact Store.carries_written database.store stamp merge.project (merge.marked tag)

end PlcTags.Merge
