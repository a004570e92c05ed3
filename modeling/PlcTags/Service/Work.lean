import PlcTags.Service.Call

/-!
# The work that is left

Every step brings its party nearer to its end, so that the work that is left in the
service bounds the steps that can be made before somebody else has to act.
-/

namespace PlcTags

open Live

namespace Live

/-- The work of all items of a list. -/
def totalWork {α : Type} (work : α → Nat) : List α → Nat
  | [] => 0
  | item :: rest => work item + totalWork work rest

/-- The steps of a call that are left. -/
def Call.work : Call → Nat
  | checking _ => 1
  | joining _ => 3
  | registering .. => 2
  | greeting _ => 1

def Session.work (session : Session) : Nat :=
  (session.call.map Call.work).getD 0

/-- The steps of a job that are left.  Before its source has been read a pass can have as
many tags as the source has bytes. -/
def Job.work (job : Job) : Nat :=
  let source := (job.pass?.map (·.edit.sourceText.utf8ByteSize)).getD 0
  match job.stage with
  | .delayed _ => source + 8
  | .extracting => source + 7
  | .validating tags _ => tags.length + 6
  | .queued _ batch _ => batch.length + 5
  | .merging _ rest _ => rest.length + 4
  | .announcing .. => 3
  | .delivering .. => 2
  | .reporting => 1
  | .ended _ => 0

end Live

namespace Service

/-- The steps that are left. -/
def work (service : Service) : Nat :=
  totalWork Session.work service.sessions + totalWork Job.work service.jobs

end Service

end PlcTags
