import PlcTags.Proofs.Service.Mails

/-!
# What sessions answer

The tags of a project come to a session through its outbox, and never as the answer to a
call: sessions answer plainly (`Run.answersPlainly`).  So whoever hands the answers of a
session on to its client puts no tags of projects into its outbox.
-/

namespace PlcTags

open Live

namespace Live.Session

variable {session : Session}

/-- The last answer carries no tags of a project. -/
def AnswersPlainly (session : Session) : Prop :=
  ∀ message, session.reply = some message → message.project? = none

theorem answersPlainly_answer (session : Session) {message : ServerMessage}
    (h : message.project? = none) : (session.answer (some message)).AnswersPlainly := by
  intro other hother
  rwa [← Option.some.inj hother]

theorem answersPlainly_of_none (h : session.reply = none) : session.AnswersPlainly := by
  intro message hmessage
  rw [h] at hmessage
  cases hmessage

end Live.Session

namespace Service

variable {service next : Service} {number index : Nat} {session : Session} {job : Job}

/-- All sessions answer plainly. -/
def AnswersPlainly (service : Service) : Prop :=
  ∀ (number : Nat) (session : Session), service.sessions[number]? = some session →
    session.AnswersPlainly

namespace AnswersPlainly

/-! ## Changes of sessions -/

theorem congr (h : service.AnswersPlainly) (hsame : next.sessions = service.sessions) :
    next.AnswersPlainly := by
  unfold AnswersPlainly
  rwa [hsame]

theorem updateSession (h : service.AnswersPlainly) (number : Nat) {change : Session → Session}
    (hchange : ∀ session : Session, session.AnswersPlainly → (change session).AnswersPlainly) :
    (service.updateSession number change).AnswersPlainly := by
  intro other later hlater
  rw [Service.updateSession, List.getElem?_modify] at hlater
  obtain ⟨session, hsession, rfl⟩ := Option.map_eq_some_iff.mp hlater
  split
  · exact hchange session (h other session hsession)
  · exact h other session hsession

theorem setSession (h : service.AnswersPlainly) (number : Nat) (hsession : session.AnswersPlainly) :
    (service.setSession number session).AnswersPlainly := by
  intro other later hlater
  rw [Service.setSession, List.getElem?_set] at hlater
  split at hlater
  · split at hlater
    · obtain rfl := Option.some.inj hlater
      exact hsession
    · cases hlater
  · exact h other later hlater

theorem answer (h : service.AnswersPlainly) (number : Nat) {message : ServerMessage}
    (hmessage : message.project? = none) : (service.answer number message).AnswersPlainly :=
  h.updateSession number fun session _ => session.answersPlainly_answer hmessage

theorem await (h : service.AnswersPlainly) (number : Nat) (call : Call) :
    (service.updateSession number (·.await call)).AnswersPlainly :=
  h.updateSession number fun _ _ => Session.answersPlainly_of_none rfl

/-- Messages that come into an outbox are no answers. -/
theorem told (h : service.AnswersPlainly) (htold : next.SameButTold service) :
    next.AnswersPlainly := by
  intro number later hlater
  obtain ⟨session, hsession, hsame⟩ := htold.exists_session hlater
  rw [hsame]
  exact h number session hsession

/-! ## Steps of calls -/

theorem checkCredential (h : service.AnswersPlainly) (number : Nat) (session : Session)
    (credential : Option String) :
    (service.checkCredential number session credential).AnswersPlainly := by
  unfold Service.checkCredential
  split
  · exact h.setSession number (Session.answersPlainly_answer _ rfl)
  · exact h.answer number rfl

theorem loadForJoin (h : service.AnswersPlainly) (number : Nat) (project : Int) :
    (service.loadForJoin number project).AnswersPlainly := by
  unfold Service.loadForJoin
  split
  · exact h.await number _
  · exact answer h number rfl

theorem endJoin (h : service.AnswersPlainly) (number : Nat) (project : Int) :
    (service.endJoin number project).AnswersPlainly :=
  updateSession h number fun _ _ => Session.answersPlainly_of_none rfl

theorem register (h : service.AnswersPlainly) (number : Nat) (session : Session) (project : Int)
    (tags : List StoredTag) : (service.register number session project tags).AnswersPlainly := by
  rw [Service.register]
  split
  · exact setSession h number (Session.answersPlainly_of_none rfl)
  · refine endJoin ?_ number project
    exact setSession h number (Session.answersPlainly_of_none rfl)

theorem greet? (h : service.AnswersPlainly) (hsession : session.AnswersPlainly) {project : Int}
    (hgreets : service.greet? number session project = some next) : next.AnswersPlainly := by
  unfold Service.greet? at hgreets
  split at hgreets
  · obtain ⟨outbox, -, rfl⟩ := Option.map_eq_some_iff.mp hgreets
    refine endJoin ?_ number project
    exact setSession h number hsession
  · obtain rfl := Option.some.inj hgreets
    exact h.endJoin number project

theorem sessionStep? (h : service.AnswersPlainly) (hstep : service.sessionStep? number = some next) :
    next.AnswersPlainly := by
  unfold Service.sessionStep? at hstep
  obtain ⟨session, hsession, hstep⟩ := Option.bind_eq_some_iff.mp hstep
  obtain ⟨call, hcall, hstep⟩ := Option.bind_eq_some_iff.mp hstep
  cases call with
  | checking credential =>
      obtain rfl := Option.some.inj hstep
      exact h.checkCredential number session credential
  | joining project =>
      obtain ⟨-, hstep⟩ := Option.ite_none_right_eq_some.mp hstep
      obtain rfl := Option.some.inj hstep
      exact h.loadForJoin number project
  | registering project tags =>
      obtain rfl := Option.some.inj hstep
      exact h.register number session project tags
  | greeting project => exact h.greet? (h number session hsession) hstep

/-! ## Calls -/

theorem leave (h : service.AnswersPlainly) (number : Nat) (project : Int) :
    (service.leave number project).AnswersPlainly :=
  updateSession h number fun _ hsession => hsession

theorem beginCheck (h : service.AnswersPlainly) (number : Nat) (session : Session)
    (credential : Option String) :
    (service.beginCheck number session credential).AnswersPlainly := by
  unfold Service.beginCheck
  split
  · exact h.await number _
  · exact h.answer number rfl

theorem beginJoin (h : service.AnswersPlainly) (number : Nat) (session : Session)
    (project : Int) : (service.beginJoin number session project).AnswersPlainly := by
  unfold Service.beginJoin
  split
  · exact await (h.leave number _) number _
  · exact await h number _

theorem acceptEdit (h : service.AnswersPlainly) (number : Nat) (session : Session)
    (project : Int) (edit : Edit) :
    (service.acceptEdit number session project edit).AnswersPlainly := by
  unfold Service.acceptEdit
  dsimp only
  split
  · exact updateSession h number fun _ _ => Session.answersPlainly_of_none rfl
  · exact setSession h number (Session.answersPlainly_answer _ rfl)

theorem beginHandle (h : service.AnswersPlainly) (number : Nat) (session : Session)
    (message : ClientMessage) : (service.beginHandle number session message).AnswersPlainly := by
  unfold Service.beginHandle
  split
  · exact h.answer number rfl
  · exact h.beginCheck number session _
  · exact h.answer number rfl
  · exact h.beginJoin number session _
  · exact (h.leave number _).answer number rfl
  · exact h.answer number rfl
  · exact h.acceptEdit number session _ _
  · exact h.answer number rfl

theorem endSession (h : service.AnswersPlainly) (number : Nat) (hsession : session.AnswersPlainly) :
    (service.endSession number session).AnswersPlainly := by
  cases hclosed : session.isClosed with
  | true => rwa [endSession_of_isClosed hclosed]
  | false =>
      obtain ⟨hsessions, -, -⟩ := service.endSession_of_open number hclosed
      have hset : (service.setSession number (closedSession session)).AnswersPlainly :=
        h.setSession number hsession
      exact hset.congr hsessions

theorem withIdle (h : service.AnswersPlainly) {act : Session → Service}
    (hact : ∀ session : Session, session.AnswersPlainly → (act session).AnswersPlainly) :
    (service.withIdle number act).AnswersPlainly := by
  unfold Service.withIdle
  split
  · rename_i session hsession
    split
    · exact hact session (h number session hsession)
    · exact h
  · exact h

/-! ## Every move -/

theorem openSession (h : service.AnswersPlainly) (capacity : Nat) :
    ((service.openSession? capacity).getD service).AnswersPlainly := by
  unfold openSession? Outbox.new?
  split
  · intro number session hsession
    change (service.sessions ++ [_])[number]? = some session at hsession
    rcases of_getElem?_concat hsession with hold | ⟨-, rfl⟩
    · exact h number session hold
    · exact Session.answersPlainly_of_none rfl
  · exact h

theorem step (h : service.AnswersPlainly) (party : Party) :
    (service.moved (.step party)).AnswersPlainly := by
  cases hstep : service.step? party with
  | none =>
      rw [Service.moved, hstep]
      exact h
  | some next =>
      rw [Service.moved, hstep]
      cases party with
      | session number => exact h.sessionStep? hstep
      | job number =>
          obtain ⟨job, -, hprogress⟩ := progress_of_jobStep? hstep
          exact h.told (sameButTold_of_progress hprogress)

theorem moved (h : service.AnswersPlainly) (move : Move) :
    (service.moved move).AnswersPlainly := by
  cases move with
  | step party => exact h.step party
  | openSession capacity => exact h.openSession capacity
  | authenticate number credential =>
      exact h.withIdle fun session _ => h.beginCheck number session _
  | handle number message => exact h.withIdle fun session _ => h.beginHandle number session _
  | close number =>
      refine h.withIdle fun session hsession => (h.endSession number hsession).updateSession number ?_
      exact fun _ _ => Session.answersPlainly_of_none rfl
  | drop number =>
      refine h.withIdle fun session hsession => (h.endSession number hsession).updateSession number ?_
      exact fun _ hlater => hlater
  | takeMessage number => exact h.told (service.sameButTold_takeMessage number)
  | hangUp number => exact h.told (service.sameButTold_updateOutbox number (·.close))
  | post number message => exact h.told (service.sameButTold_updateOutbox number (·.offer message))
  | importContainer project vendor format bytes =>
      show ((service.importContainer ..).toOption.getD service).AnswersPlainly
      unfold importContainer
      split <;> exact h
  | merge | startAnnouncement | wait | listen | access => exact h

end AnswersPlainly

/-- **Sessions answer plainly**, at every moment of a run. -/
theorem Run.answersPlainly (run : Run) (moment : ℕ) : (run.state moment).AnswersPlainly := by
  induction moment with
  | zero =>
      intro number session hsession
      rw [sessions_zero] at hsession
      cases hsession
  | succ moment ih => exact ih.moved (run.moves moment)

end Service

end PlcTags
