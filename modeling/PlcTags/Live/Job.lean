import PlcTags.Live.Message
import PlcTags.Source.Extraction
import PlcTags.Store.Merge

/-!
# Jobs

A job works on one project beside the calls of the sessions.  A sync pass takes an edit
through all stages: it waits for its delay, reads the declarations, validates their tags,
merges them into the project and announces the project to its subscribers.  An import
begins with the merge; a merge or an announcement can also be asked for by itself.
-/

namespace PlcTags.Live

/-- A pass of an edit, which was given a number and a token of its session's slot. -/
structure Pass where
  sync : Nat
  session : Nat
  token : Nat
  edit : Edit
  deriving DecidableEq, Repr

/-- New tags of an edit are marked as generated if a program wrote its source. -/
def Edit.origin (edit : Edit) : Origin :=
  if edit.generated then .generated else .editor

/-- What a job is for. -/
inductive Purpose where
  | sync (pass : Pass)
  /-- The merge of a container of a vendor. -/
  | importing (vendor : Vendor)
  /-- Only a merge. -/
  | merge
  /-- Only an announcement. -/
  | announce
  deriving DecidableEq, Repr

/-- What came of an import. -/
structure ImportSummary where
  inserted : Nat
  updated : Nat
  unchanged : Nat
  /-- The problems of entries and tags, in the order in which they were found. -/
  errors : List Diagnostic
  deriving DecidableEq, Repr

/-- How a job ended. -/
inductive Outcome where
  /-- A later edit took the place of the pass before it reached the merge. -/
  | superseded
  /-- The session of a pass was told how it went, if it is still there. -/
  | told
  | merged (result : Except Failure MergeReport)
  | imported (result : Except Failure ImportSummary)
  /-- How many subscribers an announcement reached. -/
  | announced (result : Except Failure Nat)

/-- How far a job is.  The problems that were found go along with it. -/
inductive Stage where
  /-- Waiting for its delay. -/
  | delayed (due : Nat)
  | extracting
  /-- The tags of the declarations are about to be validated. -/
  | validating (tags : List Tag) (diagnostics : List Diagnostic)
  /-- In line for the merge, or first in line. -/
  | queued (origin : Origin) (batch : List Tag) (diagnostics : List Diagnostic)
  /-- Merging, with the tags that remain. -/
  | merging (merge : Merge) (rest : List Tag) (diagnostics : List Diagnostic)
  /-- In line for the announcement, or first in line.  What was merged before, if
  anything, is reported when it is over. -/
  | announcing (report : Option MergeReport) (diagnostics : List Diagnostic)
  /-- The tags of the project are known; they are about to be sent. -/
  | delivering (report : Option MergeReport) (diagnostics : List Diagnostic)
    (tags : List StoredTag)
  /-- The report of a pass waits for room in its session's outbox. -/
  | reporting
  | ended (outcome : Outcome)

structure Job where
  project : Int
  purpose : Purpose
  stage : Stage

namespace Job

/-- The pass that the job carries out. -/
def pass? (job : Job) : Option Pass :=
  match job.purpose with
  | .sync pass => some pass
  | .importing _ | .merge | .announce => none

/-- How the job ended. -/
def outcome? (job : Job) : Option Outcome :=
  match job.stage with
  | .ended outcome => some outcome
  | _ => none

end Job

end PlcTags.Live
