import PlcTags.Proofs.Service.Passes

/-!
# What is left of a session that closes

Closing a session for the first time leaves nothing of it: nobody is accepted in it, its
edit is cancelled, and it is in no project.  A session that has closed can still be
called, and all that it does from then on stays when it closes again, because a session
closes only once (`standings_close`).  The same is true when it goes.  So what a session
leaves behind is decided by whether it had closed before (`leavesNothing_iff`).
-/

namespace PlcTags.Service

open Live

variable {service next : Service} {move : Move} {number : Nat} {session : Session}
  {standing : Standing}

/-! ## Ending calls -/

theorem withIdle_of_idle (h : service.sessions[number]? = some session)
    (hidle : session.isIdle = true) (act : Session → Service) :
    service.withIdle number act = act session := by
  simp only [withIdle, h, hidle, if_true]

theorem withIdle_of_busy (h : ¬ ∃ session, service.sessions[number]? = some session ∧
    session.isIdle = true) (act : Session → Service) : service.withIdle number act = service := by
  unfold withIdle
  split
  · split
    · rename_i session hsession hidle
      exact absurd ⟨session, hsession, hidle⟩ h
    · rfl
  · rfl

/-- A session that has closed stays as it is when it closes again. -/
theorem standings_close (h : service.sessions[number]? = some session)
    (hidle : session.isIdle = true) :
    (service.close number).standings = service.standings.set number
      (if session.isClosed then session.standing else session.standing.closed false) := by
  have hcall := call_of_isIdle hidle
  have hdropped := (Standing.isIdle_iff.mp ((isIdle_standing session).trans hidle)).1
  rw [close, withIdle_of_idle h hidle]
  cases hclosed : session.isClosed with
  | false =>
      refine standings_endSession h hclosed ?_
      simp only [Session.standing, Session.answer, Standing.closed, closedSession, hcall]
      exact congrArg (Standing.mk _ _ _ _) hdropped
  | true =>
      rw [endSession_of_isClosed hclosed, standings_updateSession h]
      simp only [Session.standing, Session.answer, hcall, hclosed, if_true]

theorem standings_drop (h : service.sessions[number]? = some session)
    (hidle : session.isIdle = true) :
    (service.drop number).standings = service.standings.set number
      (if session.isClosed then { session.standing with isDropped := true }
        else session.standing.closed true) := by
  rw [drop, withIdle_of_idle h hidle]
  cases hclosed : session.isClosed with
  | false => exact standings_endSession h hclosed rfl
  | true =>
      rw [endSession_of_isClosed hclosed, standings_updateSession h]
      rfl

/-! ## Sessions that have closed -/

/-- Only the calls that are the end of a session mark it as closed, or as gone. -/
theorem Conduct.flags {later : Standing} {registry : Registry Nat} {announcements : Locks}
    (h : Conduct service number standing false later registry announcements) :
    later.isClosed = standing.isClosed ∧ later.isDropped = standing.isDropped := by
  cases h <;> exact ⟨rfl, rfl⟩

/-- A session that is gone stays as it is. -/
theorem Conduct.eq_of_isDropped {later : Standing} {registry : Registry Nat} {isEnd : Bool}
    {announcements : Locks}
    (h : Conduct service number standing isEnd later registry announcements)
    (hsound : standing.IsSound) (hdropped : standing.isDropped = true) : later = standing := by
  have hidle : standing.isIdle ≠ true := by
    intro hidle
    cases (Standing.isIdle_iff.mp hidle).1.symm.trans hdropped
  have hcall := hsound.dropped hdropped
  cases h with
  | answers => rfl
  | checks credential h | leaves h | asks _ h | moves _ h | edits h | closes _ h | closesIn _ h
  | goes h => exact absurd h hidle
  | accepted h | refused h | loads _ h | fails h | registers h | joins h | greets h =>
      cases hcall.symm.trans h

/-- What a move that is not the end of a session does to its flags. -/
theorem Happens.flags (h : Happens service move next) (hclose : move ≠ .close number)
    (hdrop : move ≠ .drop number) {later : Standing}
    (hlater : next.standings[number]? = some later) :
    (∃ standing, service.standings[number]? = some standing ∧
        later.isClosed = standing.isClosed ∧ later.isDropped = standing.isDropped) ∨
      service.standings.length ≤ number ∧ later = .fresh := by
  cases h.seatsGo with
  | stay hsame => exact .inl ⟨later, by rw [← hsame.standings]; exact hlater, rfl, rfl⟩
  | @conduct other isEnd hconducts hend =>
      left
      obtain ⟨standing, found, hstanding, hconduct, hstandings⟩ := hconducts
      rw [hstandings] at hlater
      by_cases hother : other = number
      · subst hother
        obtain ⟨hlength, -⟩ := List.getElem?_eq_some_iff.mp hstanding
        obtain rfl := Option.some.inj ((List.getElem?_set_self hlength).symm.trans hlater)
        cases isEnd with
        | false => exact ⟨standing, hstanding, hconduct.flags⟩
        | true => exact ((hend rfl).elim hclose hdrop).elim
      · rw [List.getElem?_set_ne hother] at hlater
        exact ⟨later, hlater, rfl, rfl⟩
  | opened hstandings hregistry =>
      rw [hstandings] at hlater
      rcases of_getElem?_concat hlater with hold | ⟨hnumber, rfl⟩
      · exact .inl ⟨later, hold, rfl, rfl⟩
      · exact .inr ⟨Nat.le_of_eq hnumber.symm, rfl⟩

namespace Run

variable {run : Run} {moment : ℕ}

/-- A session is asked to close at a moment, and can be. -/
def Closes (run : Run) (moment : ℕ) (number : Nat) : Prop :=
  run.moves moment = .close number ∧
    ∃ session, (run.state moment).sessions[number]? = some session ∧ session.isIdle = true

/-- A session has closed before. -/
def HasClosed (run : Run) (moment : ℕ) (number : Nat) : Prop :=
  ∃ earlier < moment, run.Closes earlier number

theorem hasClosed_succ :
    run.HasClosed (moment + 1) number ↔ run.HasClosed moment number ∨ run.Closes moment number := by
  constructor
  · rintro ⟨earlier, hlt, hcloses⟩
    rcases Nat.lt_succ_iff_lt_or_eq.mp hlt with hlt | rfl
    · exact .inl ⟨earlier, hlt, hcloses⟩
    · exact .inr hcloses
  · rintro (⟨earlier, hlt, hcloses⟩ | hcloses)
    · exact ⟨earlier, Nat.lt_succ_of_lt hlt, hcloses⟩
    · exact ⟨moment, Nat.lt_succ_self moment, hcloses⟩

/-- Sessions stay where they are in the list. -/
theorem length_standings_le (run : Run) {moment later : ℕ} (hle : moment ≤ later) :
    (run.state moment).standings.length ≤ (run.state later).standings.length := by
  induction hle with
  | refl => exact Nat.le_refl _
  | @step later hle ih =>
      refine Nat.le_trans ih ?_
      by_contra hlt
      have hlast : (run.state (later + 1)).standings.length < (run.state later).standings.length :=
        Nat.lt_of_not_le hlt
      obtain ⟨found, hfound, -⟩ := (run.happens later).grows (List.getElem?_eq_getElem hlast)
      exact Nat.lt_irrefl _ (List.getElem?_eq_some_iff.mp hfound).1

/-- A call of a session that cannot be called changes nothing. -/
theorem state_succ_of_busy
    (hmove : run.moves moment = .close number ∨ run.moves moment = .drop number)
    (hbusy : ¬ ∃ session, (run.state moment).sessions[number]? = some session ∧
      session.isIdle = true) : run.state (moment + 1) = run.state moment := by
  show (run.state moment).moved (run.moves moment) = _
  rcases hmove with hmove | hmove
  · rw [hmove]
    exact withIdle_of_busy hbusy _
  · rw [hmove]
    exact withIdle_of_busy hbusy _

/-- How a session stands that was asked to close, or to go. -/
theorem standing_close (hsession : (run.state moment).sessions[number]? = some session)
    (hidle : session.isIdle = true) (hmove : run.moves moment = .close number) :
    (run.state (moment + 1)).standings[number]? =
      some (if session.isClosed then session.standing else session.standing.closed false) := by
  obtain ⟨hlength, -⟩ := List.getElem?_eq_some_iff.mp (getElem?_standings hsession)
  show ((run.state moment).moved (run.moves moment)).standings[number]? = _
  rw [hmove]
  show ((run.state moment).close number).standings[number]? = _
  rw [standings_close hsession hidle]
  exact List.getElem?_set_self hlength

theorem standing_drop (hsession : (run.state moment).sessions[number]? = some session)
    (hidle : session.isIdle = true) (hmove : run.moves moment = .drop number) :
    (run.state (moment + 1)).standings[number]? =
      some (if session.isClosed then { session.standing with isDropped := true }
        else session.standing.closed true) := by
  obtain ⟨hlength, -⟩ := List.getElem?_eq_some_iff.mp (getElem?_standings hsession)
  show ((run.state moment).moved (run.moves moment)).standings[number]? = _
  rw [hmove]
  show ((run.state moment).drop number).standings[number]? = _
  rw [standings_drop hsession hidle]
  exact List.getElem?_set_self hlength

theorem length_of_hasClosed (h : run.HasClosed moment number) :
    number < (run.state moment).standings.length := by
  obtain ⟨earlier, hlt, -, session, hsession, -⟩ := h
  have hbound := (List.getElem?_eq_some_iff.mp (getElem?_standings hsession)).1
  exact Nat.lt_of_lt_of_le hbound (run.length_standings_le (Nat.le_of_lt hlt))

/-- A session that is still there is marked as closed if it has closed. -/
theorem isClosed_iff (run : Run) (moment : ℕ)
    (hstanding : (run.state moment).standings[number]? = some standing)
    (hdropped : standing.isDropped = false) :
    standing.isClosed = true ↔ run.HasClosed moment number := by
  induction moment generalizing standing with
  | zero =>
      rw [standings, sessions_zero] at hstanding
      cases hstanding
  | succ moment ih =>
      rw [hasClosed_succ]
      by_cases hend : run.moves moment = .close number ∨ run.moves moment = .drop number
      · by_cases hidle : ∃ session, (run.state moment).sessions[number]? = some session ∧
          session.isIdle = true
        · rcases hend with hclose | hdrop
          · have hcloses : run.Closes moment number := ⟨hclose, hidle⟩
            obtain ⟨session, hsession, hcall⟩ := hidle
            rw [standing_close hsession hcall hclose] at hstanding
            obtain rfl := Option.some.inj hstanding
            refine iff_of_true ?_ (.inr hcloses)
            split
            · assumption
            · rfl
          · obtain ⟨session, hsession, hcall⟩ := hidle
            -- Who is dropped while idle is there no longer.
            rw [standing_drop hsession hcall hdrop] at hstanding
            obtain rfl := Option.some.inj hstanding
            split at hdropped <;> cases hdropped
        · -- A call that finds the session busy, or not there, does nothing.
          rw [state_succ_of_busy hend hidle] at hstanding
          rw [or_iff_left fun hcloses => hidle hcloses.2]
          exact ih hstanding hdropped
      · rw [not_or] at hend
        rw [or_iff_left fun hcloses => hend.1 hcloses.1]
        rcases (run.happens moment).flags hend.1 hend.2 hstanding with
          ⟨before, hbefore, hclosed, hdropped'⟩ | ⟨hlength, rfl⟩
        · rw [hclosed]
          exact ih hbefore (hdropped'.symm.trans hdropped)
        · refine iff_of_false Bool.false_ne_true ?_
          intro hclosed
          exact Nat.not_lt_of_le hlength (length_of_hasClosed hclosed)

end Run

/-! ## What is left -/

/-- Nobody is accepted in a session, no edit of it waits, and it is in no project. -/
def IsReleased (service : Service) (number : Nat) : Prop :=
  ∃ session, service.sessions[number]? = some session ∧ session.state = .unauthenticated ∧
    session.slot.isArmed = false ∧ ∀ project, number ∉ service.registry.subscribers project

/-- From a moment on a session is in no project, and of its passes those that wait for
their delays never come further, unless to their end. -/
def Run.IsGone (run : Run) (moment : ℕ) (number : Nat) : Prop :=
  ∀ later ≥ moment,
    (∀ project, number ∉ (run.state later).registry.subscribers project) ∧
      ∀ (index : Nat) (job : Job) (pass : Pass) (due : Nat),
        (run.state moment).jobs[index]? = some job → job.purpose = .sync pass →
          pass.session = number → job.stage = .delayed due →
          (run.state later).jobs[index]? = some job ∨
            (run.state later).jobs[index]? = some (job.withStage (.ended .superseded))

/-- An idle session is released if nobody is accepted in it. -/
theorem isReleased_iff (hseated : service.Seated)
    (hstanding : service.standings[number]? = some standing) (hcall : standing.call = none) :
    service.IsReleased number ↔ standing.state = .unauthenticated := by
  obtain ⟨session, hsession, rfl⟩ := exists_of_getElem?_standings hstanding
  have hsound := hseated.isSound hstanding
  constructor
  · rintro ⟨found, hfound, hstate, -, -⟩
    obtain rfl := Option.some.inj (hsession.symm.trans hfound)
    exact hstate
  · intro hstate
    refine ⟨session, hsession, hstate, ?_, ?_⟩
    · show session.standing.slot.isArmed = false
      rw [Bool.eq_false_iff, ne_eq, hsound.slot.isArmed_iff, not_not]
      by_contra hpending
      obtain ⟨project, hsubscribed⟩ := hsound.pending hpending
      cases hstate.symm.trans hsubscribed
    · intro project hmem
      rw [hseated.mem_iff_isIn hstanding, Standing.IsIn, hcall, hstate] at hmem
      rcases hmem with hmem | hmem <;> cases hmem

namespace Run

variable {run : Run} {moment : ℕ}

/-- A session that is gone stays as it is. -/
theorem standing_of_isDropped (run : Run) {moment later : ℕ} (hle : moment ≤ later)
    (hstanding : (run.state moment).standings[number]? = some standing)
    (hdropped : standing.isDropped = true) :
    (run.state later).standings[number]? = some standing := by
  induction hle with
  | refl => exact hstanding
  | @step later hle ih =>
      obtain ⟨hlength, -⟩ := List.getElem?_eq_some_iff.mp ih
      cases (run.happens later).seatsGo with
      | stay hsame => rw [hsame.standings, ih]
      | @conduct other isEnd hconducts hend =>
          obtain ⟨found, next, hfound, hconduct, hstandings⟩ := hconducts
          rw [hstandings]
          by_cases hother : other = number
          · subst hother
            obtain rfl := Option.some.inj (hfound.symm.trans ih)
            rw [List.getElem?_set_self hlength,
              hconduct.eq_of_isDropped ((run.seated later).isSound ih) hdropped]
          · rw [List.getElem?_set_ne hother, ih]
      | opened hstandings hregistry =>
          rw [hstandings, List.getElem?_append_left hlength, ih]

/-- Nothing comes any more from a session that is gone if it has left its project. -/
theorem isGone_iff (hstanding : (run.state moment).standings[number]? = some standing)
    (hdropped : standing.isDropped = true) :
    run.IsGone moment number ↔ ∀ project, standing.state ≠ .subscribed project := by
  have hsound := (run.seated moment).isSound hstanding
  constructor
  · intro hgone project hstate
    apply (hgone moment (Nat.le_refl moment)).1 project
    exact ((run.seated moment).mem_iff_isIn hstanding project).mpr (.inl hstate)
  · intro hstate later hle
    constructor
    · intro project hmem
      have hkept := run.standing_of_isDropped hle hstanding hdropped
      rw [(run.seated later).mem_iff_isIn hkept, Standing.IsIn, hsound.dropped hdropped] at hmem
      rcases hmem with hmem | hmem
      · exact hstate project hmem
      · cases hmem
    · intro index job pass due hjob hpurpose hsession hstage
      have hpass := Job.pass?_eq_some_iff.mpr hpurpose
      obtain ⟨-, found, hfound, htoken⟩ := (run.passesInOrder moment).known hjob hpass
      rw [hsession] at hfound
      obtain rfl := Option.some.inj (hstanding.symm.trans hfound)
      -- Its slot is empty, so all its edits are cancelled.
      have hlate : (run.state moment).isSuperseded pass = true := by
        rw [isSuperseded_eq (hsession ▸ hstanding)]
        apply hsound.slot.others htoken
        intro hpending
        obtain ⟨project, hsubscribed⟩ := hsound.pending (by simp [hpending])
        exact hstate project hsubscribed
      have hrank : job.stage.rank < 3 := by
        rw [hstage]
        exact Nat.zero_lt_succ 2
      exact (run.shelved hle ⟨.inl hjob, hlate⟩ hpass hrank).job

/-- **What is left of a session when it closes, and when it goes.**  Nothing is left if it
has not closed before; of a session that has, nothing is left only if it has been in no
project since. -/
theorem leavesNothing_iff (run : Run) (moment : ℕ)
    (hsession : (run.state moment).sessions[number]? = some session)
    (hidle : session.isIdle = true) :
    (run.moves moment = .close number →
      ((run.state (moment + 1)).IsReleased number ↔
        ¬ run.HasClosed moment number ∨ session.state = .unauthenticated)) ∧
    (run.moves moment = .drop number →
      (run.IsGone (moment + 1) number ↔
        ¬ run.HasClosed moment number ∨ ∀ project, session.state ≠ .subscribed project)) := by
  have hcall : session.standing.call = none := call_of_isIdle hidle
  have hthere : session.standing.isDropped = false :=
    (Standing.isIdle_iff.mp ((isIdle_standing session).trans hidle)).1
  have hclosed : session.isClosed = true ↔ run.HasClosed moment number :=
    run.isClosed_iff moment (getElem?_standings hsession) hthere
  -- Whether the session has closed before is remembered in the session itself.
  rw [← hclosed]
  constructor
  · intro hmove
    have hstanding := standing_close hsession hidle hmove
    have hseated := run.seated (moment + 1)
    cases hflag : session.isClosed with
    | false =>
        simp only [hflag] at hstanding
        rw [isReleased_iff hseated hstanding hcall]
        exact iff_of_true rfl (.inl Bool.false_ne_true)
    | true =>
        simp only [hflag, if_true] at hstanding
        rw [isReleased_iff hseated hstanding hcall]
        simp [Session.standing]
  · intro hmove
    have hstanding := standing_drop hsession hidle hmove
    cases hflag : session.isClosed with
    | false =>
        simp only [hflag] at hstanding
        rw [isGone_iff hstanding rfl]
        exact iff_of_true (fun project hstate => by cases hstate) (.inl Bool.false_ne_true)
    | true =>
        simp only [hflag, if_true] at hstanding
        rw [isGone_iff hstanding rfl]
        simp [Session.standing]

/-- A service whose sessions are all accepted. -/
def openService : Service where
  settings := { auth := { disabled := true } }
  database := {}
  events := { capacity := 256 }

theorem isNew_openService :
    ∃ settings database supply, start? settings database supply = some openService :=
  ⟨openService.settings, {}, {}, rfl⟩

/-- An edit of a source that declares one tag of this type. -/
def pumpEdit (type : String) : Edit :=
  { vendor := .siemens, sourceText := "VAR_GLOBAL\n  Pump : " ++ type ++ ";\nEND_VAR\n" }

/-- A session closes, is accepted again, joins a project, and closes again. -/
def reopenedRun : Run where
  first := openService
  isNew := isNew_openService
  moves moment := [
    Move.openSession 8, .authenticate 0 none, .step (.session 0), .close 0,
    .authenticate 0 none, .step (.session 0), .handle 0 (.subscribe 7), .step (.session 0),
    .step (.session 0), .close 0].getD moment (.wait 0)

theorem leavesNothing_reopened : ∃ first second,
    (reopenedRun.state 3).sessions[0]? = some first ∧ first.isIdle = true ∧
      (reopenedRun.state 9).sessions[0]? = some second ∧ second.isIdle = true ∧
      second.state = .subscribed 7 ∧
      (reopenedRun.state 4).IsReleased 0 ∧ ¬ (reopenedRun.state 10).IsReleased 0 := by
  have hfirst : (reopenedRun.state 3).sessions[0]?.map (fun session => session.isIdle) =
      some true := by decide +kernel
  have hsecond : (reopenedRun.state 9).sessions[0]?.map
      (fun session => (session.isIdle, session.state)) = some (true, .subscribed 7) := by
    decide +kernel
  obtain ⟨first, hsession, hidle⟩ := Option.map_eq_some_iff.mp hfirst
  obtain ⟨second, hsession', hsubscribed⟩ := Option.map_eq_some_iff.mp hsecond
  obtain ⟨hidle', hstate⟩ := Prod.mk.inj hsubscribed
  have hreleased := ((leavesNothing_iff reopenedRun 3 hsession hidle).1 rfl).mpr (.inl ?_)
  have hkept := (leavesNothing_iff reopenedRun 9 hsession' hidle').1 rfl
  refine ⟨first, second, hsession, hidle, hsession', hidle', hstate, hreleased, ?_⟩
  · rw [hkept, not_or, not_not]
    refine ⟨⟨3, by decide, rfl, first, hsession, hidle⟩, ?_⟩
    rw [hstate]
    exact nofun
  · rintro ⟨earlier, hlt, hmove, -⟩
    obtain rfl | rfl | rfl : earlier = 0 ∨ earlier = 1 ∨ earlier = 2 := by omega
    all_goals cases hmove

/-- Not every session that closes leaves nothing. -/
theorem not_isReleased_of_closed : ¬ ∀ (run : Run) (moment : ℕ) (number : Nat)
    (session : Session), (run.state moment).sessions[number]? = some session →
      session.isIdle = true → run.moves moment = .close number →
        (run.state (moment + 1)).IsReleased number := by
  intro hall
  have hidle : (reopenedRun.state 9).sessions[0]?.map (fun session => session.isIdle) =
      some true := by decide +kernel
  have hafter : (reopenedRun.state 10).sessions[0]?.map (fun session => session.state) =
      some (.subscribed 7) := by decide +kernel
  obtain ⟨session, hsession, hidle⟩ := Option.map_eq_some_iff.mp hidle
  obtain ⟨later, hlater, hstate⟩ := Option.map_eq_some_iff.mp hafter
  obtain ⟨found, hfound, hreleased, -⟩ := hall reopenedRun 9 0 session hsession hidle rfl
  obtain rfl := Option.some.inj (hlater.symm.trans hfound)
  cases hstate.symm.trans hreleased

end Run

end PlcTags.Service
