import PlcTags.Proofs.Service.Steps

/-!
# What sessions are told

A client learns what came of an edit from a message in the outbox of its session.  A step
of a job tells a message if some outbox has it once more after the step (`Tells`).  Most
steps tell nobody anything; a list of tags, the failure of a pass and its report are all
that jobs have to say, so a report of a pass comes from the end of its announcement and
from nowhere else, and repeats what the pass has found (`report_of_tells`).
-/

namespace PlcTags

open Live

/-- A message that reports on a pass. -/
def Live.ServerMessage.IsReport : ServerMessage → Prop
  | .syncComplete .. => True
  | _ => False

namespace Live.Outbox

/-- All messages that have not been taken out, those that wait for room among them. -/
def messages (outbox : Outbox) : List ServerMessage :=
  outbox.queue ++ outbox.waiting.map Prod.snd

variable {outbox next : Outbox} {message told : ServerMessage}

theorem count_messages_push (hne : told ≠ message) :
    (outbox.push told).messages.count message = outbox.messages.count message := by
  simp [messages, push, List.count_append, hne]

theorem count_messages_offer (hne : told ≠ message) :
    (outbox.offer told).messages.count message = outbox.messages.count message := by
  unfold offer
  split
  · exact count_messages_push hne
  · rfl

theorem count_messages_send (party : Party) (hne : told ≠ message) :
    (outbox.send party told).messages.count message = outbox.messages.count message := by
  unfold send
  split
  · rfl
  · split
    · exact count_messages_push hne
    · simp [messages, List.count_append, hne]

/-- The room that a party has waited for is for a message that was there before. -/
theorem messages_admit? {party : Party} (h : outbox.admit? party = some next) :
    next.messages = outbox.messages := by
  unfold admit? at h
  split at h
  · rename_i hwaiting
    simp only [Option.ite_none_right_eq_some] at h
    obtain rfl := Option.some.inj h.2
    simp [messages, hwaiting]
  · cases h

end Live.Outbox

namespace Service

variable {service middle next before after : Service} {number : Nat} {job : Job}
  {message told : ServerMessage}

/-! ## Steps that do not tell a message -/

/-- Every session has a message as often as before. -/
def Untold (message : ServerMessage) (service next : Service) : Prop :=
  ∀ (index : Nat) (session : Session), service.sessions[index]? = some session →
    ∃ later : Session, next.sessions[index]? = some later ∧
      later.outbox.messages.count message = session.outbox.messages.count message

theorem untold_of_sessions (h : next.sessions = service.sessions) :
    Untold message service next := by
  intro index session hsession
  exact ⟨session, by rw [h, hsession], rfl⟩

theorem Untold.trans (h : Untold message service middle) (h' : Untold message middle next) :
    Untold message service next := by
  intro index session hsession
  obtain ⟨second, hsecond, hcount⟩ := h index session hsession
  obtain ⟨third, hthird, hcount'⟩ := h' index second hsecond
  exact ⟨third, hthird, hcount'.trans hcount⟩

theorem untold_updateSession {index : Nat} {change : Session → Session}
    (hchange : ∀ session : Session, (change session).outbox.messages.count message =
      session.outbox.messages.count message) :
    Untold message service (service.updateSession index change) := by
  intro other session hsession
  by_cases hother : index = other
  · subst hother
    refine ⟨change session, ?_, hchange session⟩
    simp only [updateSession, List.getElem?_modify_eq, hsession, Option.map_eq_map, Option.map_some]
  · refine ⟨session, ?_, rfl⟩
    simp only [updateSession, List.getElem?_modify_ne _ _ hother, hsession]

theorem untold_deliver (service : Service) (project : Int) (hne : told ≠ message) :
    Untold message service (service.deliver project told) := by
  unfold deliver
  generalize service.registry.subscribers project = numbers
  induction numbers generalizing service with
  | nil => exact untold_of_sessions rfl
  | cons index rest ih =>
      have hfirst : Untold message service (service.updateSession index fun session =>
          { session with outbox := session.outbox.offer told }) :=
        untold_updateSession fun session => Outbox.count_messages_offer hne
      exact hfirst.trans (ih _)

theorem untold_tell (service : Service) (number : Nat) (pass : Pass) (hne : told ≠ message) :
    Untold message service (service.tell number pass told) := by
  have hsent : Untold message service (service.updateSession pass.session fun session =>
      { session with outbox := session.outbox.send (.job number) told }) :=
    untold_updateSession fun session => Outbox.count_messages_send _ hne
  exact hsent.trans (untold_of_sessions rfl)

theorem untold_awaitRoom? {pass : Pass} (h : service.awaitRoom? number pass = some next) :
    Untold message service next := by
  unfold awaitRoom? at h
  obtain ⟨session, hsession, h⟩ := Option.bind_eq_some_iff.mp h
  split at h
  · obtain ⟨outbox, houtbox, h⟩ := Option.bind_eq_some_iff.mp h
    obtain rfl := Option.some.inj h
    intro other old hold
    by_cases hother : pass.session = other
    · subst hother
      obtain rfl := Option.some.inj (hsession.symm.trans hold)
      have hlength : pass.session < service.sessions.length :=
        (List.getElem?_eq_some_iff.mp hsession).1
      refine ⟨{ session with outbox }, ?_, ?_⟩
      · exact List.getElem?_set_self hlength
      · rw [Outbox.messages_admit? houtbox]
    · refine ⟨old, ?_, rfl⟩
      exact (List.getElem?_set_ne hother).trans hold
  · obtain rfl := Option.some.inj h
    exact untold_of_sessions rfl

/-! ## Reports of passes -/

/-- The report of a pass whose merge has come to this, after these problems. -/
def completion (pass : Pass) (project : Int) (report : Option MergeReport)
    (diagnostics : List Diagnostic) : ServerMessage :=
  let report := report.getD {}
  .syncComplete pass.sync project report.inserted report.updated report.unchanged
    (diagnostics ++ report.errors)

/-- A job announces the project of its pass, and this is the report of the pass. -/
def Completes (service : Service) (number : Nat) (message : ServerMessage) : Prop :=
  ∃ job pass report found, service.jobs[number]? = some job ∧ job.purpose = .sync pass ∧
    job.stage.IsAnnouncing report found ∧ message = completion pass job.project report found

theorem untold_awaitDelay? {pass : Pass} {due : Nat}
    (h : service.awaitDelay? number pass due = some next) : Untold message service next := by
  unfold awaitDelay? at h
  split at h
  · obtain rfl := Option.some.inj h
    exact untold_of_sessions rfl
  · simp only [Option.ite_none_right_eq_some] at h
    obtain rfl := Option.some.inj h.2
    exact untold_of_sessions rfl

theorem untold_validate (service : Service) (number : Nat) (project : Int) (pass : Pass)
    (tags : List Tag) (diagnostics : List Diagnostic) :
    Untold message service (service.validate number project pass tags diagnostics) := by
  unfold validate
  split
  · exact untold_of_sessions rfl
  · exact untold_of_sessions rfl

/-- A pass that fails is not reported on. -/
theorem untold_failMerge (hmessage : message.IsReport) (service : Service) (number : Nat)
    (job : Job) (failure : Failure) :
    Untold message service (service.failMerge number job failure) := by
  unfold failMerge
  split
  · refine untold_tell service number _ ?_
    rintro rfl
    exact hmessage
  · exact untold_of_sessions rfl
  · exact untold_of_sessions rfl
  · exact untold_of_sessions rfl

theorem untold_loadForMerge (hmessage : message.IsReport) (service : Service) (number : Nat)
    (job : Job) (origin : Origin) (batch : List Tag) (diagnostics : List Diagnostic) :
    Untold message service
      (service.loadForMerge number job origin batch diagnostics) := by
  unfold loadForMerge
  split
  · exact untold_of_sessions rfl
  · refine Untold.trans ?_ (untold_failMerge hmessage _ number job _)
    exact untold_of_sessions rfl

/-- The end of an announcement tells at most the report of its pass. -/
theorem untold_or_completes_endAnnouncement {report : Option MergeReport}
    {found : List Diagnostic} (hjob : service.jobs[number]? = some job)
    (hstage : job.stage.IsAnnouncing report found) (huntold : Untold message service middle)
    (result : Except Failure Nat) :
    Untold message service (middle.endAnnouncement number job report found result) ∨
      service.Completes number message := by
  unfold endAnnouncement
  dsimp only
  split
  · rename_i pass hpurpose
    by_cases hmessage : completion pass job.project report found = message
    · exact .inr ⟨job, pass, report, found, hjob, hpurpose, hstage, hmessage.symm⟩
    · left
      refine (huntold.trans (untold_of_sessions ?_)).trans
        (untold_tell _ number pass hmessage)
      rfl
  · exact .inl (huntold.trans (untold_of_sessions rfl))
  · exact .inl (huntold.trans (untold_of_sessions rfl))
  · exact .inl (huntold.trans (untold_of_sessions rfl))

theorem untold_or_completes_loadForAnnouncement {report : Option MergeReport}
    {found : List Diagnostic} (hjob : service.jobs[number]? = some job)
    (hstage : job.stage.IsAnnouncing report found) :
    Untold message service (service.loadForAnnouncement number job report found) ∨
      service.Completes number message := by
  have hsame : Untold message service service := untold_of_sessions rfl
  unfold loadForAnnouncement
  split
  · exact untold_or_completes_endAnnouncement hjob hstage hsame _
  · split
    · exact .inl (untold_of_sessions rfl)
    · exact untold_or_completes_endAnnouncement hjob hstage hsame _

/-- The list that is announced is no report. -/
theorem untold_or_completes_announce (hmessage : message.IsReport)
    {report : Option MergeReport} {found : List Diagnostic}
    (hjob : service.jobs[number]? = some job) (hstage : job.stage.IsAnnouncing report found)
    (tags : List StoredTag) :
    Untold message service (service.announce number job report found tags) ∨
      service.Completes number message := by
  have hdelivered : Untold message service
      (service.deliver job.project (.tagsUpdated job.project tags)) := by
    refine untold_deliver service job.project ?_
    rintro rfl
    exact hmessage
  exact untold_or_completes_endAnnouncement hjob hstage hdelivered _

/-- The report of a pass is told at the end of its announcement only. -/
theorem untold_or_completes (hmessage : message.IsReport)
    (h : service.jobStep? number = some next) :
    Untold message service next ∨ service.Completes number message := by
  unfold jobStep? at h
  obtain ⟨job, hjob, h⟩ := Option.bind_eq_some_iff.mp h
  -- One case for each stage, and two for a merge, which has tags left or not.
  split at h
  · obtain ⟨pass, -, h⟩ := Option.bind_eq_some_iff.mp h
    exact .inl (untold_awaitDelay? h)
  · obtain ⟨pass, -, h⟩ := Option.bind_eq_some_iff.mp h
    obtain rfl := Option.some.inj h
    exact .inl (untold_of_sessions rfl)
  · obtain ⟨pass, -, h⟩ := Option.bind_eq_some_iff.mp h
    obtain rfl := Option.some.inj h
    exact .inl (untold_validate service number _ pass _ _)
  · simp only [Option.ite_none_right_eq_some] at h
    obtain rfl := Option.some.inj h.2
    exact .inl (untold_loadForMerge hmessage service number job _ _ _)
  · obtain rfl := Option.some.inj h
    exact .inl (untold_of_sessions rfl)
  · obtain rfl := Option.some.inj h
    left
    unfold endMerge
    dsimp only
    split <;> exact untold_of_sessions rfl
  · rename_i hstage
    simp only [Option.ite_none_right_eq_some] at h
    obtain rfl := Option.some.inj h.2
    exact untold_or_completes_loadForAnnouncement hjob (.inl hstage)
  · rename_i tags hstage
    obtain rfl := Option.some.inj h
    exact untold_or_completes_announce hmessage hjob (.inr ⟨tags, hstage⟩) tags
  · obtain ⟨pass, -, h⟩ := Option.bind_eq_some_iff.mp h
    exact .inl (untold_awaitRoom? h)
  · cases h

/-- The step of a job tells a message to somebody. -/
def Tells (before : Service) (number : Nat) (message : ServerMessage) (after : Service) : Prop :=
  before.jobStep? number = some after ∧
    ∃ (index : Nat) (session later : Session), before.sessions[index]? = some session ∧
      after.sessions[index]? = some later ∧
      session.outbox.messages.count message < later.outbox.messages.count message

/-- **A report repeats what its pass has found.**  It comes at the end of the announcement
of a pass, and says what this pass has brought there. -/
theorem report_of_tells (hmessage : message.IsReport)
    (h : before.Tells number message after) :
    ∃ job pass report found, before.jobs[number]? = some job ∧ job.purpose = .sync pass ∧
      job.stage.IsAnnouncing report found ∧
      message = completion pass job.project report found ∧ after.database = before.database := by
  obtain ⟨hstep, index, session, later, hsession, hlater, hmore⟩ := h
  rcases untold_or_completes hmessage hstep with huntold |
    ⟨job, pass, report, found, hjob, hpurpose, hstage, hsame⟩
  · obtain ⟨same, hsame, hcount⟩ := huntold index session hsession
    obtain rfl := Option.some.inj (hlater.symm.trans hsame)
    exact absurd hmore (hcount ▸ Nat.lt_irrefl _)
  · refine ⟨job, pass, report, found, hjob, hpurpose, hstage, hsame, ?_⟩
    obtain ⟨other, hother, stage, -, hadvance⟩ := advanced_of_jobStep? hstep
    obtain rfl := Option.some.inj (hjob.symm.trans hother)
    exact hadvance.database_of_isAnnouncing hstage

end Service

end PlcTags
