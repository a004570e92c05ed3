import PlcTags.Proofs.Service.Reachable
import PlcTags.Proofs.Store.Merge
import PlcTags.Proofs.Tag.Name
import PlcTags.Proofs.Tag.Validation

/-!
# What is admitted to the store

Edits and containers reach the store only through the validation of their tags.  So what
validation makes of every tag that can be read is true of all rows, if a write of such a
tag makes it true of its row.  `Admission` names these three properties and the steps
between them, and `Admission.holds_of_reachable` is the conclusion, for whatever happens
in a service that began without tags.

The invariant is about the jobs as much as about the rows.  A job that is in line for
its merge, or merges, has only validated tags left, and one that is about to validate
its tags has got them from the declarations of a source (`Admission.Covers`).  A write
that fails changes nothing.

Validated tags are admitted (`validation`): a write replaces all that the validity of a tag is
about, also in a row that held a tag of another vendor.  So all rows hold validated tags
(`isValidated_of_reachable`).

The name of a row is not written again.  It keeps the spelling that came first, and what comes
later has the same key in another spelling.  For what a vendor says to a name the two are the
same, with one exception (`admitsName_iff_of_reachable`): the Kelvin sign has the key of a plain
letter, and only Siemens admits it.
-/

namespace PlcTags

open Live Text
open Store (Row)

/-- A property of rows that follows from what is admitted to the store. -/
structure Admission where
  /-- It holds of all tags that are read, -/
  raw : Tag → Prop
  /-- of all that validation accepts, -/
  ready : Tag → Prop
  /-- and of all rows. -/
  kept : Row → Prop
  extracted {extraction : Source.Extraction} {tag : Tag} : tag ∈ extraction.tags → raw tag
  decoded {vendor : Vendor} {format : Container.Format} {bytes : ByteArray}
    {content : Container.Decoded} {tag : Tag} :
    Container.decode vendor format bytes = .ok content → tag ∈ content.tags → raw tag
  accepted {tag : Tag} : raw tag → tag.prepare.isAccepted = true → ready tag.prepare.tag
  marked {tag : Tag} (isGenerated : Bool) : ready tag → ready { tag with isGenerated }
  inserted {tag : Tag} (stamp : Stamp) (project : Int) :
    ready tag → kept (.ofTag stamp project tag)
  updated {tag : Tag} {row : Row} (time : Instant) : ready tag → tag.key = row.key → kept row →
    kept (row.update time tag)

namespace Admission

variable {admission : Admission} {tag : Tag}

/-- All that a batch hands on is ready. -/
theorem ready_of_mem_acceptedTags {batch : List Tag} (h : ∀ tag ∈ batch, admission.raw tag)
    (htag : tag ∈ acceptedTags batch) : admission.ready tag := by
  obtain ⟨prepared, hprepared, rfl⟩ := List.mem_map.mp htag
  obtain ⟨hmem, haccepted⟩ := List.mem_filter.mp hprepared
  obtain ⟨raw, hraw, rfl⟩ := List.mem_map.mp hmem
  exact admission.accepted (h raw hraw) haccepted

/-! ## The store -/

/-- Every row has the property. -/
def Keeps (admission : Admission) (store : Store) : Prop :=
  ∀ row ∈ store.rows, admission.kept row

theorem Keeps.upsert {store : Store} (h : admission.Keeps store) (stamp : Stamp)
    (project : Int) (htag : admission.ready tag) :
    admission.Keeps (store.upsert stamp project tag) := by
  intro row hrow
  rcases Store.mem_upsert.mp hrow with rfl | ⟨hold, -⟩
  · unfold Store.written
    split
    · rename_i found hfound
      obtain ⟨hmem, -, hkey⟩ := Store.findRow?_eq_some_iff.mp hfound
      exact admission.updated _ htag hkey.symm (h found hmem)
    · exact admission.inserted _ _ htag
  · exact h row hold

theorem Keeps.step {database : Database} (h : admission.Keeps database.store) (merge : Merge)
    (stamp : Stamp) (htag : admission.ready tag) :
    admission.Keeps (merge.step stamp database tag).2.store := by
  have hgo := merge.stepGo stamp database tag
  generalize merge.step stamp database tag = result at hgo ⊢
  cases hgo with
  | keeps | fails => exact h
  | writes => exact h.upsert stamp merge.project (admission.marked _ htag)

/-! ## The jobs -/

/-- All that the job may come to store is ready, or will be. -/
def Covers (admission : Admission) : Stage → Prop
  | .validating tags _ => ∀ tag ∈ tags, admission.raw tag
  | .queued _ batch _ => ∀ tag ∈ batch, admission.ready tag
  | .merging _ rest _ => ∀ tag ∈ rest, admission.ready tag
  | .delayed _ | .extracting | .announcing .. | .delivering .. | .reporting | .ended _ => True

theorem covers_of_isPast {stage : Stage} (h : stage.IsPast) : admission.Covers stage := by
  cases stage <;> trivial

variable {service next : Service} {number : Nat} {job : Job}

/-- Rows and jobs have what is admitted only. -/
structure Holds (admission : Admission) (service : Service) : Prop where
  rows : admission.Keeps service.database.store
  jobs : ∀ job ∈ service.jobs, admission.Covers job.stage

theorem Holds.congr (h : admission.Holds service) (hsame : next.SameWork service) :
    admission.Holds next where
  rows := by
    rw [hsame.database]
    exact h.rows
  jobs := by
    rw [hsame.jobs]
    exact h.jobs

theorem covers_of_turn (h : admission.Holds service) (hjob : admission.Covers job.stage)
    {stage : Stage} {database : Database} (hturn : Service.Turn service job stage database) :
    admission.Covers stage ∧ admission.Keeps database.store := by
  cases hturn with
  | due => exact ⟨trivial, h.rows⟩
  | extracted => exact ⟨fun _ => admission.extracted, h.rows⟩
  | validated hstage =>
      rw [hstage] at hjob
      exact ⟨fun _ => ready_of_mem_acceptedTags hjob, h.rows⟩
  | loaded hstage =>
      rw [hstage] at hjob
      exact ⟨hjob, h.rows⟩
  | @merged merge tag rest diagnostics hstage =>
      -- The only turn that changes the store, and only by a tag of the job.
      rw [hstage] at hjob
      refine ⟨fun other hother => hjob other (List.mem_cons_of_mem _ hother), ?_⟩
      exact h.rows.step merge _ (hjob tag List.mem_cons_self)
  | past hpast => exact ⟨covers_of_isPast hpast, h.rows⟩

theorem Holds.jobStep? (h : admission.Holds service) (hstep : service.jobStep? number = some next) :
    admission.Holds next := by
  obtain ⟨job, hjob, stage, hjobs, hturn⟩ := Service.turned_of_jobStep? hstep
  obtain ⟨hcovers, hrows⟩ := covers_of_turn h (h.jobs job (List.mem_of_getElem? hjob)) hturn
  refine ⟨hrows, ?_⟩
  intro other hother
  rw [hjobs] at hother
  rcases Service.mem_jobs_setStage hother with hold | hstage
  · exact h.jobs other hold
  · rw [hstage]
    exact hcovers

theorem Holds.addJob (h : admission.Holds service) (hjobs : next.jobs = service.jobs ++ [job])
    (hdatabase : next.database = service.database) (hcovers : admission.Covers job.stage) :
    admission.Holds next where
  rows := by
    rw [hdatabase]
    exact h.rows
  jobs := by
    intro other hother
    rw [hjobs] at hother
    rcases List.mem_append.mp hother with hold | hnew
    · exact h.jobs other hold
    · rw [List.mem_singleton.mp hnew]
      exact hcovers

theorem Holds.importContainer (h : admission.Holds service) {project : Int} {vendor : Vendor}
    {format : Option Container.Format} {bytes : ByteArray}
    (himport : service.importContainer project vendor format bytes = .ok next) :
    admission.Holds next := by
  unfold Service.importContainer at himport
  split at himport
  · rename_i content hcontent
    obtain rfl := Except.ok.inj himport
    refine h.addJob rfl rfl ?_
    intro tag htag
    exact ready_of_mem_acceptedTags (fun _ => admission.decoded hcontent) htag
  · cases himport

/-- Nothing that can happen brings into the store what is not admitted. -/
theorem Holds.transition (h : admission.Holds service) (hnext : service.Transition next) :
    admission.Holds next := by
  -- Tags come in with edits and containers, and only a step of a job can store them.
  cases hnext with
  | step party hstep =>
      cases party with
      | session number => exact h.congr (Service.sameWork_sessionStep? hstep)
      | job number => exact h.jobStep? hstep
  | openSession capacity hopen =>
      obtain ⟨outbox, -, rfl⟩ := Option.map_eq_some_iff.mp hopen
      exact h.congr ⟨rfl, rfl⟩
  | authenticate number credential =>
      exact h.congr (Service.sameWork_withIdle fun session =>
        service.sameWork_beginCheck number session _)
  | handle number message =>
      rcases service.handle_work number message with hsame | ⟨⟨job, due, hjobs, hstage⟩, hdatabase⟩
      · exact h.congr hsame
      · refine h.addJob hjobs hdatabase ?_
        rw [hstage]
        trivial
  | close number => exact h.congr (service.sameWork_close number)
  | drop number => exact h.congr (service.sameWork_drop number)
  | takeMessage number htake => exact h.congr (Service.sameWork_takeMessage? htake)
  | hangUp number => exact h.congr ⟨rfl, rfl⟩
  | post number message => exact h.congr ⟨rfl, rfl⟩
  | importContainer project vendor format bytes himport => exact h.importContainer himport
  | startAnnouncement project => exact h.addJob rfl rfl trivial
  | setClock now => exact h.congr ⟨rfl, rfl⟩
  | listen events => exact h.congr ⟨rfl, rfl⟩
  | access database hstore =>
      refine ⟨?_, h.jobs⟩
      rw [hstore]
      exact h.rows
  | restart hrestart =>
      obtain ⟨events, -, rfl⟩ := Option.map_eq_some_iff.mp hrestart
      exact ⟨h.rows, fun _ hjob => by cases hjob⟩

/-- **Only what is admitted is stored**, in a service that began without tags. -/
theorem holds_of_reachable (admission : Admission) (h : Service.Reachable service) :
    admission.Holds service := by
  induction h with
  | start settings database supply hempty hstart =>
      obtain ⟨events, -, rfl⟩ := Option.map_eq_some_iff.mp hstart
      refine ⟨?_, fun _ hjob => by cases hjob⟩
      intro row hrow
      rw [hempty] at hrow
      cases hrow
  | next _ hnext ih => exact ih.transition hnext

end Admission

/-! ## Validated tags -/

/-- Validated tags are admitted.  The name and the mark of a row have no part in its
validity. -/
def validation : Admission where
  raw := Tag.IsUnplaced
  ready := Tag.IsValidated
  kept row := ∃ stored, row.read = .ok stored ∧ stored.tag.IsValidated
  extracted := Source.isUnplaced_of_mem_tags
  decoded hdecode htag := Container.isUnplaced_of_decode hdecode htag
  accepted := Tag.isValidated_of_isAccepted
  marked _ h := ⟨h.address, h.category⟩
  inserted _ _ h := ⟨_, Store.read_ofTag _ _ _, h.address, h.category⟩
  updated _ h _ _ := ⟨_, Store.read_update _ _ _, h.address, h.category⟩

namespace Service

variable {service : Service}

theorem Reachable.isValidated (h : Reachable service) : validation.Holds service :=
  validation.holds_of_reachable h

/-- **No address is stored that was not validated.**  In a service that began without
tags every row can be read.  Its address is empty, or the canonical spelling of an
element of its vendor that can hold its type; its category is fixed, or what the scope
and this address say. -/
theorem isValidated_of_reachable (h : Reachable service) :
    ∀ row ∈ service.database.store.rows, ∃ stored, row.read = .ok stored ∧
      stored.tag.AddressFits ∧ stored.tag.CategoryFits := by
  intro row hrow
  obtain ⟨stored, hread, haddress, hcategory⟩ := h.isValidated.rows row hrow
  exact ⟨stored, hread, haddress, hcategory⟩

/-- A table with an address that is not in its canonical spelling, and with one that
does not exist. -/
def siemensTable : String :=
  "Name;Data Type;Logical Address\nPump;Bool;m0.1\nValve;Bool;M0.9\n"

/-- A table of another vendor with one of the names. -/
def beckhoffTable : String :=
  "Name;Type;Address\nPUMP;INT;%iw2\n"

/-- A new service after the merges of a Siemens table and of a Beckhoff table. -/
def tables? (siemens beckhoff : String) : Option Service := do
  let service ← start? {} {} {}
  let service ← (service.importContainer 7 .siemens none siemens.toUTF8).toOption
  let service ← service.jobSteps? 0 3
  let service ← (service.importContainer 7 .beckhoff none beckhoff.toUTF8).toOption
  service.jobSteps? 1 3

theorem reachable_tables {siemens beckhoff : String} (h : tables? siemens beckhoff = some service) :
    Reachable service := by
  unfold tables? at h
  obtain ⟨first, hstart, h⟩ := Option.bind_eq_some_iff.mp h
  obtain ⟨second, hsiemens, h⟩ := Option.bind_eq_some_iff.mp h
  obtain ⟨third, hmerged, h⟩ := Option.bind_eq_some_iff.mp h
  obtain ⟨fourth, hbeckhoff, h⟩ := Option.bind_eq_some_iff.mp h
  have hfirst : Reachable first := .start {} {} {} rfl hstart
  have hsecond := hfirst.next (.importContainer 7 .siemens none _ (eq_ok_of_toOption hsiemens))
  have hfourth := (hsecond.jobSteps? hmerged).next
    (.importContainer 7 .beckhoff none _ (eq_ok_of_toOption hbeckhoff))
  exact hfourth.jobSteps? h

/-- A new service after the merges of both tables. -/
def bothTables? : Option Service := do
  let service ← start? {} {} {}
  let service ← (service.importContainer 7 .siemens none siemensTable.toUTF8).toOption
  let service ← service.jobSteps? 0 3
  let service ← (service.importContainer 7 .beckhoff none beckhoffTable.toUTF8).toOption
  service.jobSteps? 1 3

theorem reachable_bothTables (h : bothTables? = some service) : Reachable service := by
  have htables : tables? siemensTable beckhoffTable = some service := h
  exact reachable_tables htables

theorem isValidated_bothTables : ∃ service, bothTables? = some service ∧ Reachable service ∧
    (service.database.store.rows.map fun row => (row.name, row.address)) = [("Pump", "%IW2")] ∧
      ∀ row ∈ service.database.store.rows, ∃ stored, row.read = .ok stored ∧
        stored.tag.AddressFits ∧ stored.tag.CategoryFits := by
  have hrows : (bothTables?.map fun service =>
      service.database.store.rows.map fun row => (row.name, row.address)) =
        some [("Pump", "%IW2")] := by
    decide +kernel
  obtain ⟨service, hservice, hrows⟩ := Option.map_eq_some_iff.mp hrows
  have hreachable := reachable_bothTables hservice
  exact ⟨service, hservice, hreachable, hrows, isValidated_of_reachable hreachable⟩

end Service

/-! ## Names -/

/-- Names are admitted in their plain spelling. -/
def legality : Admission where
  raw _ := True
  ready tag := tag.vendor.admitsName tag.name = true
  kept row := Trimmed row.name ∧ ∃ stored, row.read = .ok stored ∧ stored.tag.name = row.name ∧
    stored.tag.vendor.admitsName (plainSpelling row.name) = true
  extracted _ := trivial
  decoded _ _ := trivial
  accepted {tag} _ haccepted := by
    rw [Tag.prepare_eq, Tag.prepareAddress_eq]
    exact (Tag.isAccepted_prepare_iff.mp haccepted).1
  marked _ h := h
  inserted _ _ h := ⟨trimmed_trimmed _, _, Store.read_ofTag _ _ _, rfl,
    Vendor.admitsName_plainSpelling_of_admitsName (Vendor.admitsName_trimmed h)⟩
  updated {tag row} _ h hkey hkept := by
    obtain ⟨htrimmed, stored, -, -, hadmits⟩ := hkept
    exact ⟨htrimmed, _, Store.read_update _ _ _, rfl,
      Vendor.admitsName_plainSpelling htrimmed hadmits h (hkey.trans row.key_eq)⟩

namespace Service

variable {service : Service}

/-- **Stored names are admitted by their vendor, but for Kelvin signs.**  In a service that
began without tags every row can be read, and its vendor admits its name once the Kelvin signs
in it are plain letters.  So the vendor admits the name as it stands if it is Siemens, or if
there is no Kelvin sign, and otherwise it does not. -/
theorem admitsName_iff_of_reachable (h : Reachable service) :
    ∀ row ∈ service.database.store.rows, ∃ stored, row.read = .ok stored ∧
      stored.tag.name = row.name ∧
      stored.tag.vendor.admitsName (plainSpelling row.name) = true ∧
      (stored.tag.vendor.admitsName row.name = true ↔
        stored.tag.vendor = .siemens ∨ kelvinSign ∉ row.name.toList) := by
  intro row hrow
  obtain ⟨-, stored, hread, hname, hadmits⟩ := (legality.holds_of_reachable h).rows row hrow
  exact ⟨stored, hread, hname, hadmits, Vendor.admitsName_iff_of_plainSpelling hadmits⟩

/-- A table with a Kelvin sign for a name. -/
def kelvinTable : String :=
  "Name,Data Type\n\u212A,Bool\n"

/-- A table with the plain letter. -/
def letterTable : String :=
  "Name;Type\nk;INT\n"

/-- What is stored after both tables: one row, that is called what the first one says and
belongs to the vendor of the second one. -/
theorem row_of_kelvinTable : ∃ service row stored,
    tables? kelvinTable letterTable = some service ∧ service.database.store.rows = [row] ∧
      row.read = .ok stored ∧ stored.tag.vendor = .beckhoff ∧ stored.tag.name = "\u212A" := by
  have hrows : ((tables? kelvinTable letterTable).map fun service =>
      service.database.store.rows.map fun row => row.read.toOption.map fun stored =>
        (stored.tag.vendor, stored.tag.name)) = some [some (.beckhoff, "\u212A")] := by
    decide +kernel
  obtain ⟨service, hservice, hrows⟩ := Option.map_eq_some_iff.mp hrows
  obtain ⟨row, hrow, hstored⟩ := List.map_eq_singleton_iff.mp hrows
  obtain ⟨stored, hread, hfields⟩ := Option.map_eq_some_iff.mp hstored
  obtain ⟨hvendor, hname⟩ := Prod.mk.inj hfields
  exact ⟨service, row, stored, hservice, hrow, eq_ok_of_toOption hread, hvendor, hname⟩

/-- The letter of the second table is stored as a Kelvin sign, though it is admitted and the
sign is not. -/
theorem stores_kelvinSign : ∃ service row stored,
    Reachable service ∧ row ∈ service.database.store.rows ∧ row.read = .ok stored ∧
      stored.tag.vendor.admitsName "k" = true ∧
      stored.tag.vendor.admitsName stored.tag.name = false := by
  obtain ⟨service, row, stored, hservice, hrows, hread, hvendor, hname⟩ := row_of_kelvinTable
  refine ⟨service, row, stored, reachable_tables hservice, ?_, hread, ?_, ?_⟩
  · rw [hrows]
    exact List.mem_singleton_self row
  · rw [hvendor]
    decide
  · rw [hvendor, hname]
    decide

theorem admitsName_iff_kelvinTable : ∃ service row stored,
    Reachable service ∧ service.database.store.rows = [row] ∧ row.read = .ok stored ∧
      stored.tag.vendor.admitsName (plainSpelling row.name) = true ∧
      (stored.tag.vendor.admitsName row.name = true ↔
        stored.tag.vendor = .siemens ∨ kelvinSign ∉ row.name.toList) := by
  obtain ⟨service, row, stored, hservice, hrows, hread, -⟩ := row_of_kelvinTable
  have hreachable := reachable_tables hservice
  have hrow : row ∈ service.database.store.rows := by
    rw [hrows]
    exact List.mem_singleton_self row
  obtain ⟨same, hsame, -, hadmits⟩ := admitsName_iff_of_reachable hreachable row hrow
  obtain rfl := Except.ok.inj (hread.symm.trans hsame)
  exact ⟨service, row, stored, hreachable, hrows, hread, hadmits⟩

end Service

end PlcTags
