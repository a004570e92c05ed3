import PlcTags.Proofs.Address.Numeral
import PlcTags.Proofs.Service.Run
import PlcTags.Proofs.Service.Told

/-!
# What ends no pass

A pass that has asked for its merge ends with a message to its session, which carries its
number: a report, or the failure.  How many such messages there are in an outbox is counted
(`tally`).  A pass that has merged is also made known by an event.

Sessions, clients and whoever starts a job end no pass: no outbox has more such messages
after their moves, and no event tells of an edit (`hushed_moved`).
-/

namespace PlcTags

open Live

/-- The event tells that an edit was merged. -/
def TagEvent.IsReconciled : TagEvent → Prop
  | .reconciled .. => True
  | _ => False

/-! ## Messages that carry a number -/

/-- How the failure of a pass begins. -/
def failurePrefix (sync : Nat) : String :=
  "sync " ++ toString sync ++ " failed: "

/-- The message is one that the pass of this number ends with. -/
def isEnding (sync : Nat) : ServerMessage → Bool
  | .syncComplete number .. => number == sync
  | .error text => (failurePrefix sync).toList.isPrefixOf text.toList
  | _ => false

theorem toList_failurePrefix (sync : Nat) :
    (failurePrefix sync).toList =
      "sync ".toList ++ (Nat.toDigits 10 sync ++ " failed: ".toList) := by
  simp only [failurePrefix, Nat.toString_eq_repr, String.toList_append, Nat.toList_repr,
    List.append_assoc]

/-- The number in the failure of a pass is its own. -/
theorem isEnding_failure_iff {sync number : Nat} (text : String) :
    isEnding sync (.error (failurePrefix number ++ text)) = true ↔ sync = number := by
  have hdigits : ∀ n : Nat, ∀ c ∈ Nat.toDigits 10 n, c.isDigit = true :=
    fun n c hc => Nat.isDigit_of_mem_toDigits (by omega) (by omega) hc
  -- The digits of the number end before the blank.
  have hcut : ∀ (n : Nat) (rest : List Char),
      (Nat.toDigits 10 n ++ (" failed: ".toList ++ rest)).takeWhile Char.isDigit =
        Nat.toDigits 10 n := by
    intro n rest
    rw [List.takeWhile_append_of_pos (hdigits n)]
    exact List.append_nil _
  show List.isPrefixOf _ _ = true ↔ _
  rw [List.isPrefixOf_iff_prefix, String.toList_append, toList_failurePrefix,
    toList_failurePrefix, List.append_assoc, List.prefix_append_right_inj, List.append_assoc]
  constructor
  · rintro ⟨rest, hrest⟩
    rw [List.append_assoc] at hrest
    have hsame := congrArg (List.takeWhile Char.isDigit) hrest
    rw [hcut, hcut] at hsame
    rw [← Nat.ofDigitChars_ten_toDigits (n := sync), hsame, Nat.ofDigitChars_ten_toDigits]
  · rintro rfl
    exact ⟨text.toList, List.append_assoc ..⟩

namespace Live.Outbox

variable {outbox next : Outbox} {message : ServerMessage} {counts : ServerMessage → Bool}

theorem countP_push (counts : ServerMessage → Bool) (outbox : Outbox) (message : ServerMessage) :
    (outbox.push message).messages.countP counts =
      outbox.messages.countP counts + if counts message then 1 else 0 := by
  simp only [messages, push, List.countP_append, List.countP_singleton]
  omega

theorem countP_offer_le (hmessage : counts message = false) :
    (outbox.offer message).messages.countP counts ≤ outbox.messages.countP counts := by
  unfold offer
  split
  · rw [countP_push, hmessage]
    exact Nat.le_refl _
  · exact Nat.le_refl _

/-- A message that is sent is there once more, unless nobody takes messages out. -/
theorem countP_send_le (counts : ServerMessage → Bool) (outbox : Outbox) (party : Party)
    (message : ServerMessage) :
    (outbox.send party message).messages.countP counts ≤
      outbox.messages.countP counts + if counts message then 1 else 0 := by
  unfold send
  split
  · exact Nat.le_add_right _ _
  · split
    · exact Nat.le_of_eq (countP_push counts outbox message)
    · simp only [messages, List.map_append, List.map_singleton, List.countP_append,
        List.countP_singleton]
      omega

theorem countP_take?_le {taken : ServerMessage × Outbox} (h : outbox.take? = some taken)
    (counts : ServerMessage → Bool) :
    taken.2.messages.countP counts ≤ outbox.messages.countP counts := by
  unfold take? at h
  split at h
  · rename_i hqueue
    obtain rfl := Option.some.inj h
    simp only [messages, hqueue, List.cons_append, List.countP_cons]
    omega
  · cases h

theorem countP_close_le (counts : ServerMessage → Bool) (outbox : Outbox) :
    outbox.close.messages.countP counts ≤ outbox.messages.countP counts := by
  simp only [messages, close, List.map_nil, List.append_nil, List.countP_append]
  exact Nat.le_add_right _ _

end Live.Outbox

namespace Service

variable {service middle next : Service} {number index sync : Nat} {job : Job} {pass : Pass}
  {message : ServerMessage} {session later : Session}

/-! ## Counting -/

def outboxes (service : Service) : List Outbox :=
  service.sessions.map (·.outbox)

/-- How many messages in the outbox of a session end the pass of a number. -/
def tally (service : Service) (sync index : Nat) : Nat :=
  (service.outboxes[index]?.map fun outbox => outbox.messages.countP (isEnding sync)).getD 0

/-- No outbox has more such messages than before. -/
def Quieter (service next : Service) : Prop :=
  ∀ sync index, next.tally sync index ≤ service.tally sync index

theorem Quieter.trans (h : Quieter service middle) (h' : Quieter middle next) :
    Quieter service next :=
  fun sync index => Nat.le_trans (h' sync index) (h sync index)

theorem quieter_of_outboxes (h : next.outboxes = service.outboxes) : Quieter service next := by
  intro sync index
  have hsame : next.tally sync index = service.tally sync index := by rw [tally, tally, h]
  exact Nat.le_of_eq hsame

theorem outboxes_updateSession (service : Service) (number : Nat) {change : Session → Session}
    (hchange : ∀ session : Session, (change session).outbox = session.outbox) :
    (service.updateSession number change).outboxes = service.outboxes := by
  unfold outboxes updateSession
  refine List.ext_getElem? ?_
  intro index
  rw [List.getElem?_map, List.getElem?_map, List.getElem?_modify]
  cases service.sessions[index]? with
  | none => rfl
  | some session =>
      split
      · exact congrArg some (hchange session)
      · rfl

theorem outboxes_setSession (h : service.sessions[number]? = some session)
    (hsame : later.outbox = session.outbox) :
    (service.setSession number later).outboxes = service.outboxes := by
  unfold outboxes setSession
  rw [List.map_set, hsame]
  refine set_of_getElem? ?_
  rw [List.getElem?_map, h, Option.map_some]

/-- The outbox of one session changes. -/
theorem tally_of_set {outbox changed : Outbox} (houtbox : service.outboxes[number]? = some outbox)
    (hnext : next.outboxes = service.outboxes.set number changed) (sync index : Nat) :
    next.tally sync index =
      if number = index then changed.messages.countP (isEnding sync)
      else service.tally sync index := by
  obtain ⟨hlength, -⟩ := List.getElem?_eq_some_iff.mp houtbox
  unfold tally
  rw [hnext]
  split
  · rename_i hindex
    subst hindex
    rw [List.getElem?_set_self hlength]
    rfl
  · rename_i hindex
    rw [List.getElem?_set_ne hindex]

theorem tally_of_getElem? {outbox : Outbox} (houtbox : service.outboxes[index]? = some outbox)
    (sync : Nat) : service.tally sync index = outbox.messages.countP (isEnding sync) := by
  rw [tally, houtbox]
  rfl

theorem getElem?_outboxes (h : service.sessions[number]? = some session) :
    service.outboxes[number]? = some session.outbox := by
  rw [outboxes, List.getElem?_map, h, Option.map_some]

/-- What a change of one session adds to the messages that are counted. -/
theorem tally_updateSession_le {change : Session → Session} {more : Nat → Nat}
    (hchange : ∀ sync session, (change session).outbox.messages.countP (isEnding sync) ≤
      session.outbox.messages.countP (isEnding sync) + more sync) (sync index : Nat) :
    (service.updateSession number change).tally sync index ≤
      service.tally sync index + if index = number then more sync else 0 := by
  cases hsession : service.sessions[number]? with
  | none =>
      have hsame : (service.updateSession number change).outboxes = service.outboxes := by
        rw [outboxes, updateSession, List.modify_eq_set_getElem?, hsession]
        rfl
      exact Nat.le_trans (quieter_of_outboxes hsame sync index) (Nat.le_add_right _ _)
  | some session =>
      have hnext : (service.updateSession number change).outboxes =
          service.outboxes.set number (change session).outbox := by
        rw [outboxes, updateSession, List.modify_eq_set_getElem?, hsession]
        exact List.map_set
      rw [tally_of_set (getElem?_outboxes hsession) hnext]
      split
      · rename_i hindex
        rw [if_pos hindex.symm, ← hindex, tally_of_getElem? (getElem?_outboxes hsession)]
        exact hchange sync session
      · exact Nat.le_add_right _ _

theorem quieter_updateSession (number : Nat) {change : Session → Session}
    (hchange : ∀ sync session, (change session).outbox.messages.countP (isEnding sync) ≤
      session.outbox.messages.countP (isEnding sync)) :
    Quieter service (service.updateSession number change) := by
  intro sync index
  have hless : ∀ (sync : Nat) (session : Session),
      (change session).outbox.messages.countP (isEnding sync) ≤
        session.outbox.messages.countP (isEnding sync) + (fun _ => 0) sync := hchange
  refine Nat.le_trans (tally_updateSession_le hless sync index) ?_
  rw [ite_self]
  exact Nat.le_refl _

theorem quieter_setSession (h : service.sessions[number]? = some session)
    (hlater : ∀ sync, later.outbox.messages.countP (isEnding sync) ≤
      session.outbox.messages.countP (isEnding sync)) :
    Quieter service (service.setSession number later) := by
  have hnext : (service.setSession number later).outboxes =
      service.outboxes.set number later.outbox := List.map_set
  intro sync index
  rw [tally_of_set (getElem?_outboxes h) hnext]
  split
  · rename_i hindex
    rw [← hindex, tally_of_getElem? (getElem?_outboxes h)]
    exact hlater sync
  · exact Nat.le_refl _

/-- The tags of a project end no pass. -/
theorem quieter_deliver (service : Service) (project : Int) (tags : List StoredTag) :
    Quieter service (service.deliver project (.tagsUpdated project tags)) := by
  unfold deliver
  generalize service.registry.subscribers project = numbers
  induction numbers generalizing service with
  | nil => exact quieter_of_outboxes rfl
  | cons number rest ih =>
      exact (quieter_updateSession number fun sync session => Outbox.countP_offer_le rfl).trans
        (ih _)

/-! ## What ends no pass -/

/-- No pass ends: no outbox has more messages that end one, and no event tells of one. -/
structure Hushed (service next : Service) : Prop where
  quieter : Quieter service next
  silent : next.events = service.events ∨
    ∃ event : TagEvent, ¬ event.IsReconciled ∧ next.events = service.events.emit event

theorem hushed_of_outboxes (houtboxes : next.outboxes = service.outboxes)
    (hevents : next.events = service.events) : Hushed service next :=
  ⟨quieter_of_outboxes houtboxes, .inl hevents⟩

theorem hushed_updateSession (service : Service) (number : Nat) {change : Session → Session}
    (hchange : ∀ session : Session, (change session).outbox = session.outbox) :
    Hushed service (service.updateSession number change) :=
  hushed_of_outboxes (service.outboxes_updateSession number hchange) rfl

theorem hushed_checkCredential (hsession : service.sessions[number]? = some session)
    (credential : Option String) :
    Hushed service (service.checkCredential number session credential) := by
  unfold checkCredential
  split
  · rename_i identity haccepted
    have hsame : (service.setSession number ({ session with
        state := .authenticated, identity := some identity }.answer
          (some (.authenticated identity)))).outboxes = service.outboxes :=
      outboxes_setSession hsession rfl
    refine ⟨quieter_of_outboxes hsame, .inr ⟨.opened session.id identity _, ?_, rfl⟩⟩
    exact id
  · exact service.hushed_updateSession number fun _ => rfl

theorem hushed_loadForJoin (service : Service) (number : Nat) (project : Int) :
    Hushed service (service.loadForJoin number project) := by
  unfold loadForJoin
  split
  · exact service.hushed_updateSession number fun _ => rfl
  · exact hushed_of_outboxes (outboxes_updateSession _ number fun _ => rfl) rfl

theorem quieter_endJoin (service : Service) (number : Nat) (project : Int) :
    Quieter service (service.endJoin number project) :=
  quieter_of_outboxes (outboxes_updateSession _ number fun _ => rfl)

/-- The tags for a session that has joined a project end no pass. -/
theorem hushed_register (hsession : service.sessions[number]? = some session) (project : Int)
    (tags : List StoredTag) :
    Hushed service (service.register number session project tags) := by
  have hsent : Quieter service
      ({ service with registry := service.registry.join project number }.setSession number
        ({ session with
          outbox := session.outbox.send (.session number) (.subscribed project tags) }.await
            (.greeting project))) := by
    refine quieter_setSession hsession ?_
    intro sync
    exact Outbox.countP_send_le (isEnding sync) session.outbox _ (.subscribed project tags)
  unfold register
  dsimp only
  split
  · exact ⟨hsent, .inl rfl⟩
  · exact ⟨hsent.trans (quieter_endJoin _ number project), .inl rfl⟩

theorem hushed_greet? {project : Int} (hsession : service.sessions[number]? = some session)
    (h : service.greet? number session project = some next) : Hushed service next := by
  unfold greet? at h
  split at h
  · obtain ⟨outbox, houtbox, rfl⟩ := Option.map_eq_some_iff.mp h
    have hadmitted : Quieter service (service.setSession number { session with outbox }) := by
      refine quieter_setSession hsession ?_
      intro sync
      exact Nat.le_of_eq (congrArg _ (Outbox.messages_admit? houtbox))
    exact ⟨hadmitted.trans (quieter_endJoin _ number project), .inl rfl⟩
  · obtain rfl := Option.some.inj h
    exact ⟨service.quieter_endJoin number project, .inl rfl⟩

theorem hushed_sessionStep? (h : service.sessionStep? number = some next) :
    Hushed service next := by
  unfold sessionStep? at h
  obtain ⟨session, hsession, h⟩ := Option.bind_eq_some_iff.mp h
  obtain ⟨call, -, h⟩ := Option.bind_eq_some_iff.mp h
  cases call with
  | checking credential =>
      obtain rfl := Option.some.inj h
      exact hushed_checkCredential hsession credential
  | joining project =>
      simp only [Option.ite_none_right_eq_some] at h
      obtain rfl := Option.some.inj h.2
      exact service.hushed_loadForJoin number project
  | registering project tags =>
      obtain rfl := Option.some.inj h
      exact hushed_register hsession project tags
  | greeting project => exact hushed_greet? hsession h

theorem hushed_withIdle {act : Session → Service}
    (h : ∀ session, service.sessions[number]? = some session → Hushed service (act session)) :
    Hushed service (service.withIdle number act) := by
  unfold withIdle
  split
  · rename_i session hsession
    split
    · exact h session hsession
    · exact hushed_of_outboxes rfl rfl
  · exact hushed_of_outboxes rfl rfl

theorem hushed_beginCheck (service : Service) (number : Nat) (session : Session)
    (credential : Option String) :
    Hushed service (service.beginCheck number session credential) := by
  unfold beginCheck
  split
  · exact service.hushed_updateSession number fun _ => rfl
  · exact service.hushed_updateSession number fun _ => rfl

theorem outboxes_leave (service : Service) (number : Nat) (project : Int) :
    (service.leave number project).outboxes = service.outboxes :=
  outboxes_updateSession _ number fun _ => rfl

theorem hushed_beginJoin (service : Service) (number : Nat) (session : Session)
    (project : Int) : Hushed service (service.beginJoin number session project) := by
  unfold beginJoin
  dsimp only
  split
  · rename_i previous hprevious
    refine hushed_of_outboxes
      ((outboxes_updateSession _ number ?_).trans (service.outboxes_leave number previous)) rfl
    exact fun _ => rfl
  · exact hushed_of_outboxes (outboxes_updateSession _ number fun _ => rfl) rfl

theorem hushed_acceptEdit (hsession : service.sessions[number]? = some session) (project : Int)
    (edit : Edit) : Hushed service (service.acceptEdit number session project edit) := by
  unfold acceptEdit
  dsimp only
  split
  · exact hushed_of_outboxes (outboxes_updateSession _ number fun _ => rfl) rfl
  · have hsame : (service.setSession number ({ session with slot := session.slot.arm }.answer
        (some (.syncQueued (service.syncs + 1))))).outboxes = service.outboxes :=
      outboxes_setSession hsession rfl
    exact hushed_of_outboxes hsame rfl

theorem hushed_beginHandle (hsession : service.sessions[number]? = some session)
    (message : ClientMessage) :
    Hushed service (service.beginHandle number session message) := by
  unfold beginHandle
  split
  · exact service.hushed_updateSession number fun _ => rfl
  · exact service.hushed_beginCheck number session _
  · exact service.hushed_updateSession number fun _ => rfl
  · exact service.hushed_beginJoin number session _
  · rename_i project hstate
    refine hushed_of_outboxes
      ((outboxes_updateSession _ number ?_).trans (service.outboxes_leave number project)) rfl
    exact fun _ => rfl
  · exact service.hushed_updateSession number fun _ => rfl
  · exact hushed_acceptEdit hsession _ _
  · exact service.hushed_updateSession number fun _ => rfl

/-- The end of a session is no end of a pass. -/
theorem hushed_endSession (hsession : service.sessions[number]? = some session)
    {change : Session → Session}
    (hchange : ∀ session : Session, (change session).outbox = session.outbox) :
    Hushed service ((service.endSession number session).updateSession number change) := by
  have hended : (service.endSession number session).outboxes = service.outboxes := by
    unfold endSession
    split
    · rfl
    · have hclosed : (service.setSession number (closedSession session)).outboxes =
          service.outboxes := outboxes_setSession hsession rfl
      dsimp only
      split <;> split <;> exact hclosed
  refine ⟨quieter_of_outboxes ((outboxes_updateSession _ number hchange).trans hended), ?_⟩
  show (service.endSession number session).events = _ ∨ ∃ event : TagEvent,
    ¬ event.IsReconciled ∧ (service.endSession number session).events = _
  unfold endSession
  split
  · exact .inl rfl
  · have hclosed : ¬ (TagEvent.closed session.id service.supply.stamp.time).IsReconciled := id
    dsimp only
    by_cases hknown : session.identity.isSome
    · rw [if_pos hknown]
      right
      split <;> exact ⟨_, hclosed, rfl⟩
    · rw [if_neg hknown]
      left
      split <;> rfl

theorem hushed_openSession (service : Service) (capacity : Nat) :
    Hushed service ((service.openSession? capacity).getD service) := by
  unfold openSession? Outbox.new?
  split
  · refine ⟨?_, .inl rfl⟩
    intro sync index
    -- The outbox of the new session is empty.
    show (((service.sessions ++ [_]).map Session.outbox)[index]?.map _).getD 0 ≤ _
    rw [List.map_append, List.getElem?_append]
    split
    · exact Nat.le_refl _
    · rw [List.map_singleton, List.getElem?_singleton]
      split <;> exact Nat.zero_le _
  · exact hushed_of_outboxes rfl rfl

theorem hushed_takeMessage (service : Service) (number : Nat) :
    Hushed service (((service.takeMessage? number).map Prod.snd).getD service) := by
  cases htake : service.takeMessage? number with
  | none => exact hushed_of_outboxes rfl rfl
  | some taken =>
      obtain ⟨session, message, outbox, hsession, hleft, rfl⟩ :=
        takeMessage?_eq_some_iff.mp htake
      exact ⟨quieter_setSession hsession fun sync => Outbox.countP_take?_le hleft _, .inl rfl⟩

theorem hushed_importContainer (service : Service) (project : Int) (vendor : Vendor)
    (format : Option Container.Format) (bytes : ByteArray) :
    Hushed service ((service.importContainer project vendor format bytes).toOption.getD
      service) := by
  unfold importContainer
  split <;> exact hushed_of_outboxes rfl rfl

/-- **Only jobs end passes**: no other move does, but that anybody can post any message, and
that listeners do with the bus what they like. -/
theorem hushed_moved (service : Service) {move : Move}
    (hstep : ∀ number, move ≠ .step (.job number))
    (hpost : ∀ number message, move ≠ .post number message)
    (hlisten : ∀ events, move ≠ .listen events) : Hushed service (service.moved move) := by
  cases move with
  | step party =>
      cases party with
      | session number =>
          show Hushed service ((service.sessionStep? number).getD service)
          cases hnext : service.sessionStep? number with
          | none => exact hushed_of_outboxes rfl rfl
          | some next => exact hushed_sessionStep? hnext
      | job number => exact absurd rfl (hstep number)
  | openSession capacity => exact service.hushed_openSession capacity
  | authenticate number credential =>
      exact hushed_withIdle fun session _ => service.hushed_beginCheck number session credential
  | handle number message =>
      exact hushed_withIdle fun session hsession => hushed_beginHandle hsession message
  | close number =>
      exact hushed_withIdle fun session hsession => hushed_endSession hsession fun _ => rfl
  | drop number =>
      exact hushed_withIdle fun session hsession => hushed_endSession hsession fun _ => rfl
  | takeMessage number => exact service.hushed_takeMessage number
  | hangUp number =>
      refine ⟨quieter_updateSession number ?_, .inl rfl⟩
      exact fun sync session => Outbox.countP_close_le _ session.outbox
  | post number message => exact absurd rfl (hpost number message)
  | importContainer project vendor format bytes =>
      exact service.hushed_importContainer project vendor format bytes
  | listen events => exact absurd rfl (hlisten events)
  | merge | startAnnouncement | wait | access => exact hushed_of_outboxes rfl rfl

end Service

end PlcTags
