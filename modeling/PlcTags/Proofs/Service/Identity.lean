import PlcTags.Proofs.Service.Reachable
import PlcTags.Proofs.Store.Batch
import PlcTags.Proofs.Store.Listing

/-!
# Stored tags keep their identity

In whatever order tags are written, directly or by merges of any kind, and whether or not
the database has been opened again in between: a project lists its tags in the order of
their keys, a name finds the one tag that has its key, and a tag that is there once stays
there, under the identifier and the name it got first (`identified`).

A write is all that can happen to the store (`Change.store`), and it leaves readable rows
and all the tags that there were (`IsReadable.upsert`, `outlives_upsert`).
-/

namespace PlcTags

/-- A stored tag is the one that it was before, perhaps with other fields. -/
structure StoredTag.Continues (later earlier : StoredTag) : Prop where
  id : later.id = earlier.id
  project : later.project = earlier.project
  name : later.tag.name = earlier.tag.name
  createdAt : later.createdAt = earlier.createdAt
  isGenerated : later.tag.isGenerated = earlier.tag.isGenerated

namespace Store

variable {store before middle after : Store} {project : Int}

/-- All rows can be read. -/
def IsReadable (store : Store) : Prop :=
  ∀ row ∈ store.rows, ∃ stored, row.read = .ok stored

theorem IsReadable.upsert (h : store.IsReadable) (stamp : Stamp) (project : Int) (tag : Tag) :
    (store.upsert stamp project tag).IsReadable := by
  intro row hrow
  rcases mem_upsert.mp hrow with rfl | ⟨hold, -⟩
  · exact store.read_written stamp project tag
  · exact h row hold

/-- Every row of a store is still there, as the same tag of the same project. -/
def Outlives (before after : Store) : Prop :=
  ∀ old ∈ before.rows, ∃ row ∈ after.rows, row.project = old.project ∧ row.Keeps old

theorem Outlives.refl (store : Store) : store.Outlives store :=
  fun old hold => ⟨old, hold, rfl, .refl old⟩

theorem Outlives.trans (h : before.Outlives middle) (h' : middle.Outlives after) :
    before.Outlives after := by
  intro old hold
  obtain ⟨row, hrow, hproject, hkeeps⟩ := h old hold
  obtain ⟨last, hlast, hproject', hkeeps'⟩ := h' row hrow
  exact ⟨last, hlast, hproject'.trans hproject, hkeeps.trans hkeeps'⟩

/-- A write replaces no row but the one at its place, and this one stays the same tag. -/
theorem outlives_upsert (store : Store) (stamp : Stamp) (project : Int) (tag : Tag) :
    store.Outlives (store.upsert stamp project tag) := by
  intro old hold
  by_cases hplace : old.IsAt project tag.key
  · refine ⟨_, mem_upsert.mpr (.inl rfl), ?_⟩
    rw [written, findRow?_eq_some_iff.mpr ⟨hold, hplace⟩]
    exact ⟨rfl, rfl, rfl, rfl, rfl⟩
  · exact ⟨old, mem_upsert.mpr (.inr ⟨hold, hplace⟩), rfl, .refl old⟩

/-- Rows that are the same tag are read as the same tag. -/
theorem continues_of_keeps {row old : Row} (hproject : row.project = old.project)
    (hkeeps : row.Keeps old) {later earlier : StoredTag} (hlater : row.read = .ok later)
    (hearlier : old.read = .ok earlier) : later.Continues earlier := by
  obtain ⟨-, -, -, -, rfl⟩ := of_read_eq_ok hlater
  obtain ⟨-, -, -, -, rfl⟩ := of_read_eq_ok hearlier
  exact ⟨hkeeps.id, hproject, hkeeps.name, hkeeps.createdAt, hkeeps.isGenerated⟩

/-- What a project listed it still lists. -/
theorem Outlives.list (h : before.Outlives after) {stored later : List StoredTag}
    (hbefore : before.list project = .ok stored) (hafter : after.list project = .ok later) :
    ∀ old ∈ stored, ∃ new ∈ later, new.Continues old := by
  intro old hold
  obtain ⟨oldRow, hmem, hread⟩ := exists_row_of_mapM hbefore hold
  obtain ⟨hmem, hproject⟩ := List.mem_filter.mp hmem
  obtain ⟨row, hrow, hsame, hkeeps⟩ := h oldRow hmem
  have hproject := hsame.trans (beq_iff_eq.mp hproject)
  obtain ⟨new, hnew⟩ := exists_read_of_list hafter hrow hproject
  exact ⟨new, mem_of_list hafter hrow hproject hnew, continues_of_keeps hsame hkeeps hnew hread⟩

end Store

namespace Service

variable {start service middle next later : Service} {number : Nat} {job : Job}

open Live

/-! ## What can happen to the store -/

/-- What can happen to a service, when tags and batches are also written into its store
past its sessions and imports. -/
inductive Change (service : Service) : Service → Prop where
  | transition {next : Service} (h : service.Transition next) : Change service next
  | write (project : Int) (tag : Tag) : Change service (service.upsert project tag).2
  | merge (project : Int) (origin : Origin) (batch : List Tag) :
      Change service (service.merge project origin batch)

/-- A service comes of another by some changes. -/
inductive Comes (start : Service) : Service → Prop where
  | refl : Comes start start
  | next {service next : Service} (h : Comes start service) (hnext : service.Change next) :
      Comes start next

/-- A store is the same as before, or has been written to once. -/
def Writes (before after : Store) : Prop :=
  after = before ∨ ∃ stamp project tag, after = before.upsert stamp project tag

theorem writes_upsert (database : Database) (stamp : Stamp) (project : Int) (tag : Tag) :
    Writes database.store (database.upsert stamp project tag).store := by
  unfold Database.upsert
  split
  · exact .inl rfl
  · exact .inr ⟨stamp, project, tag, rfl⟩

theorem writes_of_database (h : next.database = service.database) :
    Writes service.database.store next.database.store :=
  .inl (congrArg Database.store h)

/-- Of all the steps of a job only the merge of a tag writes. -/
theorem writes_of_turn {stage : Stage} {database : Database}
    (h : Turn service job stage database) : Writes service.database.store database.store := by
  cases h with
  | @merged merge tag =>
      have hgo := merge.stepGo service.supply.stamp service.database tag
      generalize merge.step service.supply.stamp service.database tag = result at hgo ⊢
      cases hgo with
      | keeps | fails => exact .inl rfl
      | writes => exact .inr ⟨_, _, _, rfl⟩
  | _ => exact .inl rfl

theorem Transition.writes (h : service.Transition next) :
    Writes service.database.store next.database.store := by
  -- Only the turn of a job writes to the store, and only a call of its own changes the database.
  cases h with
  | step party hstep =>
      cases party with
      | session number => exact writes_of_database (sameWork_sessionStep? hstep).database
      | job number =>
          obtain ⟨job, -, stage, -, hturn⟩ := turned_of_jobStep? hstep
          exact writes_of_turn hturn
  | openSession capacity hopen =>
      obtain ⟨outbox, -, rfl⟩ := Option.map_eq_some_iff.mp hopen
      exact .inl rfl
  | authenticate number credential =>
      exact writes_of_database
        (sameWork_withIdle fun session => service.sameWork_beginCheck number session _).database
  | handle number message =>
      rcases service.handle_work number message with hsame | hadds
      · exact writes_of_database hsame.database
      · exact writes_of_database hadds.database
  | close number => exact writes_of_database (service.sameWork_close number).database
  | drop number => exact writes_of_database (service.sameWork_drop number).database
  | takeMessage number htake => exact writes_of_database (sameWork_takeMessage? htake).database
  | importContainer project vendor format bytes himport =>
      unfold Service.importContainer at himport
      split at himport
      · obtain rfl := Except.ok.inj himport
        exact .inl rfl
      · cases himport
  | access database hstore => exact .inl hstore
  | restart hrestart =>
      obtain ⟨events, -, rfl⟩ := Option.map_eq_some_iff.mp hrestart
      exact .inl rfl
  | hangUp | post | startAnnouncement | setClock | listen => exact .inl rfl

/-- Whatever happens, the store is written to once at most. -/
theorem Change.writes (h : service.Change next) :
    Writes service.database.store next.database.store := by
  cases h with
  | transition htransition => exact htransition.writes
  | write project tag => exact writes_upsert _ _ project tag
  | merge project origin batch => exact .inl rfl

theorem Comes.isReadable (h : Comes start service) (hstart : start.database.store.IsReadable) :
    service.database.store.IsReadable := by
  induction h with
  | refl => exact hstart
  | next _ hnext ih =>
      rcases hnext.writes with hsame | ⟨stamp, project, tag, hwritten⟩
      · rwa [hsame]
      · rw [hwritten]
        exact ih.upsert stamp project tag

theorem Comes.outlives (h : Comes start service) :
    start.database.store.Outlives service.database.store := by
  induction h with
  | refl => exact .refl _
  | next _ hnext ih =>
      rcases hnext.writes with hsame | ⟨stamp, project, tag, hwritten⟩
      · rwa [hsame]
      · rw [hwritten]
        exact ih.trans (Store.outlives_upsert _ stamp project tag)

theorem Comes.trans (h : Comes start service) (h' : Comes service later) : Comes start later := by
  induction h' with
  | refl => exact h
  | next _ hnext ih => exact ih.next hnext

/-! ## Identity -/

/-- **Stored tags keep their identity.**  Whatever is written into a store that was empty,
a project lists its tags in the order of their keys; a name finds the one listed tag with
its key, or nothing if there is none; and whatever happens later, every tag is still
listed in its project, with its identifier, its name, the moment of its first write and its
mark as generated. -/
theorem identified (hempty : start.database.store.rows = []) (hservice : Comes start service)
    (hlater : Comes service later) (project : Int) :
    ∃ stored after, service.database.store.list project = .ok stored ∧
      later.database.store.list project = .ok after ∧
      (stored.Pairwise fun a b => a.tag.key < b.tag.key) ∧
      (∀ name, ∃ found, service.database.store.find project name = .ok found ∧
        ∀ listed, found = some listed ↔ listed ∈ stored ∧ listed.tag.key = nameKey name) ∧
      ∀ old ∈ stored, ∃ new ∈ after, new.Continues old := by
  have hstart : start.database.store.IsReadable := by
    intro row hrow
    rw [hempty] at hrow
    cases hrow
  obtain ⟨stored, hstored⟩ : ∃ stored, service.database.store.list project = .ok stored :=
    Store.exists_list (hservice.isReadable hstart)
  obtain ⟨after, hafter⟩ : ∃ after, later.database.store.list project = .ok after :=
    Store.exists_list ((hservice.trans hlater).isReadable hstart)
  exact ⟨stored, after, hstored, hafter, Store.sorted_key_of_list hstored,
    Store.find_of_list hstored, hlater.outlives.list hstored hafter⟩

theorem Comes.jobSteps? {count : Nat} (h : Comes start service)
    (hsteps : service.jobSteps? number count = some next) : Comes start next := by
  induction count generalizing service with
  | zero =>
      obtain rfl := Option.some.inj hsteps
      exact h
  | succ count ih =>
      obtain ⟨middle, hstep, hrest⟩ := Option.bind_eq_some_iff.mp hsteps
      exact ih (h.next (.transition (.step (.job number) hstep))) hrest

/-- A service on an empty store. -/
def bareService : Service where
  settings := {}
  database := {}
  events := { capacity := 1 }

/-- A name with blanks around it, whose lower case depends on where its letters stand. -/
def streetTag : Tag :=
  { name := " ΟΔΟΣ\n", dataType := .bool, scope := .input, category := .input,
    vendor := .siemens }

/-- The service after the street was written, and after it was merged with another address,
opened again and written once more. -/
def streets? : Option (Service × Service) := do
  let service := (bareService.upsert 7 streetTag).2
  let merged ← (service.merge 7 .editor
    [{ streetTag with name := "Οδος", address := "I0.1" }]).jobSteps? 0 3
  let opened ← merged.restart?
  return (service, (opened.upsert 7 { streetTag with name := "οδος ", vendor := .beckhoff }).2)

theorem comes_streets (h : streets? = some (service, later)) :
    Comes bareService service ∧ Comes service later := by
  unfold streets? at h
  obtain ⟨merged, hmerged, h⟩ := Option.bind_eq_some_iff.mp h
  obtain ⟨opened, hopened, h⟩ := Option.bind_eq_some_iff.mp h
  obtain ⟨rfl, rfl⟩ := Prod.mk.inj (Option.some.inj h)
  refine ⟨Comes.refl.next (.write 7 streetTag), ?_⟩
  have hmerging : Comes (bareService.upsert 7 streetTag).2 ((bareService.upsert 7 streetTag).2.merge
      7 .editor [{ streetTag with name := "Οδος", address := "I0.1" }]) :=
    Comes.refl.next (.merge 7 .editor _)
  exact ((hmerging.jobSteps? hmerged).next (.transition (.restart hopened))).next (.write 7 _)

theorem identified_streets : ∃ service later stored after, streets? = some (service, later) ∧
    bareService.database.store.rows = [] ∧ Comes bareService service ∧ Comes service later ∧
    service.database.store.list 7 = .ok stored ∧ later.database.store.list 7 = .ok after ∧
    (stored.map (·.tag.name) = ["ΟΔΟΣ"] ∧
      after.map (fun listed => (listed.tag.name, listed.tag.vendor)) = [("ΟΔΟΣ", .beckhoff)]) ∧
    (∀ name, ∃ found, service.database.store.find 7 name = .ok found ∧
      ∀ listed, found = some listed ↔ listed ∈ stored ∧ listed.tag.key = nameKey name) ∧
    ∀ old ∈ stored, ∃ new ∈ after, new.Continues old := by
  have hnames : (streets?.map fun (service, later) =>
      ((service.database.store.list 7).toOption.map fun stored => stored.map (·.tag.name),
        (later.database.store.list 7).toOption.map fun after =>
          after.map fun listed => (listed.tag.name, listed.tag.vendor))) =
        some (some ["ΟΔΟΣ"], some [("ΟΔΟΣ", .beckhoff)]) := by
    decide +kernel
  obtain ⟨⟨service, later⟩, hstreets, hnames⟩ := Option.map_eq_some_iff.mp hnames
  obtain ⟨hservice, hlater⟩ := comes_streets hstreets
  obtain ⟨stored, after, hstored, hafter, -, hfind, hkept⟩ := identified rfl hservice hlater 7
  obtain ⟨hbefore, hthen⟩ := Prod.mk.inj hnames
  rw [hstored] at hbefore
  rw [hafter] at hthen
  exact ⟨service, later, stored, after, hstreets, rfl, hservice, hlater, hstored, hafter,
    ⟨Option.some.inj hbefore, Option.some.inj hthen⟩, hfind, hkept⟩

end Service

end PlcTags
