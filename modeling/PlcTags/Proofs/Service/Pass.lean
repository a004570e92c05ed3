import PlcTags.Proofs.Service.Told
import PlcTags.Proofs.Service.Undisturbed
import PlcTags.Proofs.Source.Unread

/-!
# A pass loses nothing silently

A declaration can be dropped in many places on its way from a source to the store: its
type may be unknown, its name or address refused, its key taken by another declaration,
and its write may fail.  Whatever happens, the report of the pass either has an error
that names the declaration, or the declaration is the only one with its key and its row
carries it (`isAccounted_of_tells`).

The way has three parts.  The declarations come to a batch, and those that do not are
reported before the merge (`Store.Settles.accounted`); the account of the merge follows
the pass up to the end of its announcement (`Undisturbed.accounts`); and what is found
there is what the session is told (`report_of_tells`).
-/

namespace PlcTags

open Live

/-! ## Declarations and their tags -/

namespace Source

namespace Declaration

def key (declaration : Declaration) : String :=
  nameKey declaration.name

/-- A stored tag is what a vendor's declaration says. -/
structure IsStored (declaration : Declaration) (vendor : Vendor) (stored : Tag) : Prop where
  dataType : vendor.readType? declaration.typeName = some stored.dataType
  address : Address.IsSpelling vendor declaration.address stored.address
  scope : stored.scope = declaration.block.scope
  defaultValue : stored.defaultValue = declaration.defaultValue
  description : stored.description = declaration.description
  vendor : stored.vendor = vendor

variable {declaration : Declaration} {vendor : Vendor} {tag stored : Tag}

/-- The tag of a declaration, which has not been validated. -/
theorem of_toTag_eq_ok (h : declaration.toTag vendor = .ok tag) :
    ∃ dataType, vendor.readType? declaration.typeName = some dataType ∧ tag =
      { name := declaration.name
        dataType
        address := Text.trimmed declaration.address
        scope := declaration.block.scope
        category :=
          declaration.block.category?.getD (Category.infer declaration.block.scope none)
        defaultValue := declaration.defaultValue
        description := declaration.description
        vendor } := by
  unfold toTag at h
  split at h
  · cases h
  · rename_i dataType htype
    exact ⟨dataType, htype, (Except.ok.inj h).symm⟩

/-- A declaration of an unknown type is reported by its name. -/
theorem of_toTag_eq_error {diagnostic : Diagnostic}
    (h : declaration.toTag vendor = .error diagnostic) :
    diagnostic.isError = true ∧ diagnostic.tag = some declaration.name := by
  unfold toTag at h
  split at h
  · obtain rfl := Except.error.inj h
    exact ⟨rfl, rfl⟩
  · cases h

theorem key_of_toTag (h : declaration.toTag vendor = .ok tag) : tag.key = declaration.key := by
  obtain ⟨dataType, -, rfl⟩ := of_toTag_eq_ok h
  rfl

/-- What says the same as the tag of a declaration is what the declaration says. -/
theorem isStored_of_says (h : declaration.toTag vendor = .ok tag) (hsaid : stored.Says tag) :
    declaration.IsStored vendor stored := by
  obtain ⟨dataType, htype, rfl⟩ := of_toTag_eq_ok h
  exact ⟨by rw [htype, hsaid.dataType], Address.isSpelling_trimmed.mp hsaid.address,
    hsaid.scope, hsaid.defaultValue, hsaid.description, hsaid.vendor⟩

end Declaration

namespace Extraction

variable {extraction : Extraction} {declaration : Declaration}

/-- What is found before the merge reports the declarations of unknown types. -/
theorem reports_tagDiagnostics (hmem : declaration ∈ extraction.declarations)
    (h : (declaration.toTag extraction.vendor).toOption = none) :
    Reports extraction.tagDiagnostics declaration.key := by
  cases htag : declaration.toTag extraction.vendor with
  | error diagnostic =>
      obtain ⟨herror, hname⟩ := Declaration.of_toTag_eq_error htag
      refine reports_of_mem ?_ herror hname
      refine List.mem_append_right _ (List.mem_filterMap.mpr ⟨declaration, hmem, ?_⟩)
      rw [htag]
  | ok tag =>
      rw [htag] at h
      cases h

/-- Each declaration is named by an error among the problems, or it is the only one with
its key and its row carries it; and each statement that could not be read has an error at
its line. -/
structure IsAccounted (extraction : Extraction) (store : Store) (project : Int)
    (problems : List Diagnostic) : Prop where
  declarations : ∀ declaration ∈ extraction.declarations,
    Reports problems declaration.key ∨
      (IsAlone Declaration.key extraction.declarations declaration ∧
        ∃ row stored, store.findRow? project declaration.key = some row ∧
          row.read = .ok stored ∧ declaration.IsStored extraction.vendor stored.tag)
  unread : ReportsUnread extraction.entries problems

/-- A source is accounted for if its batch is, and if what it has reported is reported. -/
theorem isAccounted_of_settles {store : Store} {project : Int} {errors : List Diagnostic}
    (hunread : ReportsUnread extraction.entries extraction.diagnostics)
    (hsettles : store.Settles project (acceptedTags extraction.tags) errors) :
    extraction.IsAccounted store project
      (extraction.tagDiagnostics ++ batchIssues extraction.tags ++ errors) where
  declarations := by
    have hfound : extraction.tagDiagnostics ⊆
        extraction.tagDiagnostics ++ batchIssues extraction.tags ++ errors := by
      rw [List.append_assoc]
      exact List.subset_append_left _ _
    have hissues : batchIssues extraction.tags ⊆
        extraction.tagDiagnostics ++ batchIssues extraction.tags ++ errors :=
      List.subset_append_of_subset_left _ (List.subset_append_right _ _)
    have hbatch := hsettles.mono (List.subset_append_right
      (extraction.tagDiagnostics ++ batchIssues extraction.tags) errors)
    have hkey : ∀ declaration ∈ extraction.declarations, ∀ tag,
        (declaration.toTag extraction.vendor).toOption = some tag →
          tag.key = Declaration.key declaration :=
      fun _ _ _ htag => Declaration.key_of_toTag (eq_ok_of_toOption htag)
    intro declaration hmem
    refine (hbatch.accounted hissues hkey
      (fun other hother hnone => (reports_tagDiagnostics hother hnone).mono hfound)
      declaration hmem).imp_right ?_
    rintro ⟨halone, tag, row, stored, htag, hrow, hread, hsaid⟩
    exact ⟨halone, row, stored, hrow, hread,
      Declaration.isStored_of_says (eq_ok_of_toOption htag) hsaid⟩
  unread := by
    refine hunread.mono ?_
    intro problem hproblem
    exact List.mem_append_left _ (List.mem_append_left _ (List.mem_append_left _ hproblem))

end Extraction

end Source

/-! ## The report of a pass -/

namespace Service

open Source (Declaration Extraction)

variable {service before after : Service} {number : Nat} {job : Job} {pass : Pass}

/-- When an undisturbed pass announces its project, its source is accounted for by what it
has to report. -/
theorem isAccounted_of_isAnnouncing {later : Job} {report : Option MergeReport}
    {found : List Diagnostic} (hjob : service.jobs[number]? = some job)
    (hpurpose : job.purpose = .sync pass) (hstage : job.stage = .extracting)
    (hrun : Undisturbed number job.project service before)
    (hlater : before.jobs[number]? = some later)
    (hannouncing : later.stage.IsAnnouncing report found) :
    later.purpose = .sync pass ∧ later.project = job.project ∧
      (Source.extract pass.edit.vendor pass.edit.sourceText).IsAccounted before.database.store
        job.project (found ++ (report.getD {}).errors) := by
  let extraction := Source.extract pass.edit.vendor pass.edit.sourceText
  have hstart : job.Accounts (acceptedTags extraction.tags)
      (extraction.tagDiagnostics ++ batchIssues extraction.tags) service.database.store := by
    rw [Job.Accounts, hstage]
    intro same hsame
    rw [Job.pass?, hpurpose] at hsame
    obtain rfl := Option.some.inj hsame
    exact ⟨rfl, rfl⟩
  obtain ⟨stage, hbefore, haccounts⟩ := hrun.accounts hjob hstart
  obtain rfl := Option.some.inj (hbefore.symm.trans hlater)
  -- The problems are those from before the merge, and the merge's own.
  obtain ⟨rfl, hsettles⟩ := haccounts.of_isAnnouncing hannouncing
  exact ⟨hpurpose, rfl, Source.Extraction.isAccounted_of_settles
    (Source.reportsUnread_extract _ _) hsettles⟩

/-- **A pass loses nothing silently.**  If nobody else writes to its project from the
moment its source is read, and it ends with a report, then its source is accounted for:
each declaration is named by an error of the report, or it is the only one with its key
and its row carries it, and there is an error at the line of each statement that could
not be read. -/
theorem isAccounted_of_tells (hjob : service.jobs[number]? = some job)
    (hpurpose : job.purpose = .sync pass) (hstage : job.stage = .extracting)
    (hrun : Undisturbed number job.project service before)
    {sync : Nat} {project : Int} {inserted updated unchanged : Nat}
    {diagnostics : List Diagnostic}
    (htells : before.Tells number
      (.syncComplete sync project inserted updated unchanged diagnostics) after) :
    sync = pass.sync ∧ project = job.project ∧
      (Source.extract pass.edit.vendor pass.edit.sourceText).IsAccounted after.database.store
        project diagnostics := by
  have hreport : (ServerMessage.syncComplete sync project inserted updated unchanged
      diagnostics).IsReport := trivial
  obtain ⟨later, told, report, found, hlater, hsync, hannouncing, hmessage, hdatabase⟩ :=
    report_of_tells hreport htells
  obtain ⟨hpass, hproject, haccounted⟩ :=
    isAccounted_of_isAnnouncing hjob hpurpose hstage hrun hlater hannouncing
  obtain rfl := Purpose.sync.inj (hpass.symm.trans hsync)
  obtain ⟨rfl, rfl, -, -, -, rfl⟩ := ServerMessage.syncComplete.inj hmessage
  rw [hdatabase, hproject]
  exact ⟨rfl, rfl, haccounted⟩

/-- A source with a name in two spellings, an unknown type, and a statement without one. -/
def mixedSource : String :=
  "VAR_GLOBAL\n  Pump AT %m0.1 : Bool;\n  Valve : Int;\n  PUMP : Bool;\n" ++
    "  Level AT %MW4 : Int := 5;\n  Tank : Frob;\n  Motor;\n  Fan : Int;\nEND_VAR\n"

def mixedPass : Pass where
  sync := 1
  session := 0
  token := 0
  edit := { vendor := .siemens, sourceText := mixedSource }

/-- A service with a pass of this source, whose database refuses one of the names. -/
def mixedService : Service where
  settings := {}
  database := { refusals := { names := ["Fan"] } }
  events := { capacity := 1 }
  sessions := [{ id := (Supply.stamp {}).id, outbox := { capacity := 1 } }]
  jobs := [{ project := 7, purpose := .sync mixedPass, stage := .extracting }]

def mixedProblems : List Diagnostic :=
  [{ severity := .error, code := .partialDeclaration, line := some 7,
     message := "cannot read declaration 'Motor': expected 'name : TYPE'" },
    { severity := .error, code := .untranslatableType, line := some 6, tag := some "Tank",
      message := "siemens has no data type 'Frob'" },
    Merge.duplicate "PUMP",
    Merge.conflict "Fan" (.internal "write refused")]

def mixedReport : ServerMessage :=
  .syncComplete 1 7 3 1 0 mixedProblems

/-- The service before and after the last step of the pass; on the way the clock is set. -/
def mixedRun? : Option (Service × Service) := do
  let middle ← mixedService.jobSteps? 0 2
  let before ← (middle.setClock 5).jobSteps? 0 7
  let after ← before.jobStep? 0
  return (before, after)

theorem undisturbed_mixedRun (h : mixedRun? = some (before, after)) :
    Undisturbed 0 7 mixedService before ∧ before.jobStep? 0 = some after := by
  unfold mixedRun? at h
  obtain ⟨middle, hmiddle, h⟩ := Option.bind_eq_some_iff.mp h
  obtain ⟨last, hlast, h⟩ := Option.bind_eq_some_iff.mp h
  obtain ⟨next, hnext, h⟩ := Option.bind_eq_some_iff.mp h
  obtain ⟨rfl, rfl⟩ := Prod.mk.inj (Option.some.inj h)
  have hmiddle : Undisturbed 0 7 mixedService middle := .jobSteps? .refl hmiddle
  have hclock : Undisturbed 0 7 mixedService (middle.setClock 5) := hmiddle.others rfl rfl
  exact ⟨hclock.jobSteps? hlast, hnext⟩

theorem tells_of_outboxes (hstep : before.jobStep? 0 = some after)
    (hbefore : before.sessions.map (·.outbox) = [{ capacity := 1 }])
    (hafter : after.sessions.map (·.outbox) = [{ capacity := 1, queue := [mixedReport] }]) :
    before.Tells 0 mixedReport after := by
  obtain ⟨session, hsessions, houtbox⟩ := List.map_eq_singleton_iff.mp hbefore
  obtain ⟨later, hlaters, hlater⟩ := List.map_eq_singleton_iff.mp hafter
  refine ⟨hstep, 0, session, later, by rw [hsessions]; rfl, by rw [hlaters]; rfl, ?_⟩
  rw [houtbox, hlater]
  simp [Outbox.messages]

theorem isAccounted_mixedSource : ∃ before after, Undisturbed 0 7 mixedService before ∧
    before.Tells 0 mixedReport after ∧
    (after.database.store.rows.map fun row => (row.name, row.address)) =
      [("Level", "MW4"), ("Pump", ""), ("Valve", "")] ∧
    (Source.extract .siemens mixedSource).IsAccounted after.database.store 7 mixedProblems := by
  have hrun : (mixedRun?.map fun run =>
      (run.1.sessions.map (·.outbox), run.2.sessions.map (·.outbox),
        run.2.database.store.rows.map fun row => (row.name, row.address))) =
      some ([{ capacity := 1 }], [{ capacity := 1, queue := [mixedReport] }],
        [("Level", "MW4"), ("Pump", ""), ("Valve", "")]) := by
    decide +kernel
  obtain ⟨⟨before, after⟩, hrun, houtcome⟩ := Option.map_eq_some_iff.mp hrun
  obtain ⟨hbefore, houtcome⟩ := Prod.mk.inj houtcome
  obtain ⟨hafter, hrows⟩ := Prod.mk.inj houtcome
  obtain ⟨hundisturbed, hstep⟩ := undisturbed_mixedRun hrun
  have htells := tells_of_outboxes hstep hbefore hafter
  have hjob : mixedService.jobs[0]? =
      some { project := 7, purpose := .sync mixedPass, stage := .extracting } := rfl
  obtain ⟨-, -, haccounted⟩ := isAccounted_of_tells hjob rfl rfl hundisturbed htells
  exact ⟨before, after, hundisturbed, htells, hrows, haccounted⟩

end Service

end PlcTags
