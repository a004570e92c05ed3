import PlcTags.Proofs.Live.Slot
import PlcTags.Proofs.Service.Lines

/-!
# Sessions, their slots and the registry

At every moment the registry holds the sessions that are subscribed to a project, and
those that are about to be, and no others (`Seated.mem_iff`); the slots of all sessions
are tidy (`Slot.Tidy`), and only a session that is subscribed to a project has an edit in
its slot.  What has been cancelled stays cancelled (`Slot.Grows`).
-/

namespace PlcTags

open Live

/-! ## The registry -/

namespace Live.Registry

variable {Session : Type} {registry : Registry Session} {project other : Int}
  {session joined : Session}

theorem lookup_filter_ne {α : Type} {pairs : List (Int × α)} :
    (pairs.filter (·.1 != project)).lookup other =
      if other = project then none else pairs.lookup other := by
  induction pairs with
  | nil => simp
  | cons pair pairs ih =>
      obtain ⟨key, value⟩ := pair
      rw [List.filter_cons, List.lookup_cons]
      by_cases hkey : key = project
      · subst hkey
        rw [if_neg (by simp), ih]
        split
        · rfl
        · rename_i hother
          rw [beq_false_of_ne hother]
      · rw [if_pos (by simpa using hkey), List.lookup_cons, ih]
        split
        · rename_i hother
          rw [if_neg]
          rintro rfl
          exact hkey (beq_iff_eq.mp hother).symm
        · rfl

theorem subscribers_withSubscribers (registry : Registry Session) (project other : Int)
    (sessions : List Session) :
    (registry.withSubscribers project sessions).subscribers other =
      if other = project then sessions else registry.subscribers other := by
  unfold withSubscribers subscribers
  dsimp only
  by_cases hother : other = project
  · subst hother
    simp only [if_true]
    split
    · rename_i hempty
      rw [lookup_filter_ne, if_pos rfl, List.isEmpty_iff.mp hempty]
      rfl
    · rw [List.lookup_append, lookup_filter_ne, if_pos rfl]
      simp
  · simp only [if_neg hother]
    split
    · rw [lookup_filter_ne, if_neg hother]
    · rw [List.lookup_append, lookup_filter_ne, if_neg hother]
      simp [List.lookup_cons, beq_false_of_ne hother]

variable [DecidableEq Session]

theorem mem_subscribers_join : session ∈ (registry.join project joined).subscribers other ↔
    session ∈ registry.subscribers other ∨ other = project ∧ session = joined := by
  unfold join
  dsimp only
  split
  · rename_i hmem
    refine ⟨.inl, ?_⟩
    rintro (hsession | ⟨rfl, rfl⟩)
    · exact hsession
    · exact hmem
  · rw [subscribers_withSubscribers]
    split
    · rename_i hother
      subst hother
      simp
    · rename_i hother
      simp [hother]

theorem mem_subscribers_leave : session ∈ (registry.leave project joined).subscribers other ↔
    session ∈ registry.subscribers other ∧ ¬ (other = project ∧ session = joined) := by
  rw [leave, subscribers_withSubscribers]
  split
  · rename_i hother
    subst hother
    simp
  · rename_i hother
    simp [hother]

end Live.Registry

/-! ## Sessions -/

namespace Live.Standing

/-- The session is subscribed to a project, or about to be. -/
def IsIn (standing : Standing) (project : Int) : Prop :=
  standing.state = .subscribed project ∨ standing.call = some (.greeting project)

/-- What a session does fits where it stands. -/
structure IsSound (standing : Standing) : Prop where
  slot : standing.slot.Tidy
  /-- Only a session that is subscribed has an edit that waits. -/
  pending : standing.slot.pending ≠ none → ∃ project, standing.state = .subscribed project
  checking : ∀ {credential}, standing.call = some (.checking credential) →
    standing.state = .unauthenticated
  joining : standing.announcementWanted ≠ none → standing.state = .authenticated
  /-- A session that is gone does nothing any more. -/
  dropped : standing.isDropped = true → standing.call = none

variable {standing : Standing} {project : Int}

theorem isIn_of_idle (h : standing.isIdle = true) :
    standing.IsIn project ↔ standing.state = .subscribed project := by
  obtain ⟨-, hcall⟩ := isIdle_iff.mp h
  simp [IsIn, hcall]

/-- An idle session that leaves its project is in no project any more. -/
theorem isIn_and_ne_iff_of_idle {other : Int} (hidle : standing.isIdle = true)
    (hstate : standing.state = .subscribed project) :
    standing.IsIn other ∧ other ≠ project ↔ False := by
  rw [isIn_of_idle hidle, hstate]
  simp [eq_comm]

theorem isIn_iff_of_unsubscribed (hidle : standing.isIdle = true)
    (hstate : ∀ project, standing.state ≠ .subscribed project) :
    standing.IsIn project ↔ False := by
  rw [isIn_of_idle hidle]
  simp [hstate project]

/-- While a session is busy it is in no project but one that it is about to join. -/
theorem IsSound.isIn_of_wanted (h : standing.IsSound)
    (hwanted : standing.announcementWanted ≠ none) :
    standing.IsIn project ↔ standing.call = some (.greeting project) := by
  simp [IsIn, h.joining hwanted]

theorem IsSound.pending_of_wanted (h : standing.IsSound)
    (hwanted : standing.announcementWanted ≠ none) : standing.slot.pending = none := by
  by_contra hpending
  obtain ⟨project, hstate⟩ := h.pending hpending
  rw [h.joining hwanted] at hstate
  cases hstate

/-- An idle session with any state and any slot that fits it. -/
theorem isSound_of_idle (hslot : standing.slot.Tidy) (hcall : standing.call = none)
    (hpending : standing.slot.pending = none ∨ ∃ project, standing.state = .subscribed project) :
    standing.IsSound where
  slot := hslot
  pending hsome := hpending.resolve_left hsome
  checking h := by rw [hcall] at h; cases h
  joining h := absurd (announcementWanted_of_idle hcall) h
  dropped _ := hcall

/-- A session that waits to join a project, or joins it. -/
theorem isSound_of_wanted (hslot : standing.slot.Tidy) (hpending : standing.slot.pending = none)
    (hwanted : standing.announcementWanted ≠ none) (hstate : standing.state = .authenticated)
    (hdropped : standing.isDropped = false) : standing.IsSound where
  slot := hslot
  pending hsome := absurd hpending hsome
  checking := by
    intro credential hcall
    rw [announcementWanted, hcall] at hwanted
    exact absurd rfl hwanted
  joining _ := hstate
  dropped h := by rw [hdropped] at h; cases h

theorem IsSound.isDropped_of_call {call : Call} (h : standing.IsSound)
    (hcall : standing.call = some call) : standing.isDropped = false := by
  cases hdropped : standing.isDropped with
  | false => rfl
  | true => cases hcall.symm.trans (h.dropped hdropped)

/-- A session stays sound as it goes on with joining a project. -/
theorem IsSound.goesOn {call later : Call} (h : standing.IsSound)
    (hcall : standing.call = some call) (hwanted : standing.announcementWanted = some project)
    (hlater : announcementWanted { standing with call := some later } = some project) :
    IsSound { standing with call := some later } := by
  have hwanted' := Option.ne_none_iff_exists'.mpr ⟨project, hwanted⟩
  exact isSound_of_wanted h.slot (h.pending_of_wanted hwanted')
    (Option.ne_none_iff_exists'.mpr ⟨project, hlater⟩) (h.joining hwanted')
    (h.isDropped_of_call hcall)

end Live.Standing

namespace Service

variable {service middle next : Service} {number : Nat} {standing later : Standing}
  {registry : Registry Nat} {announcements : Locks} {isEnd : Bool}

theorem Conduct.isSound (h : Conduct service number standing isEnd later registry announcements)
    (hsound : standing.IsSound) : later.IsSound := by
  have hidleCall : standing.isIdle = true → standing.call = none ∧ standing.isDropped = false :=
    fun hidle => (Standing.isIdle_iff.mp hidle).symm
  have hpending : standing.slot.pending = none ∨ ∃ project, standing.state = .subscribed project :=
    Classical.or_iff_not_imp_left.mpr hsound.pending
  cases h with
  | answers => exact hsound
  | checks credential hidle hstate =>
      refine ⟨hsound.slot, hsound.pending, fun _ => hstate, fun h => absurd rfl h, ?_⟩
      intro hdropped
      cases (hidleCall hidle).2.symm.trans hdropped
  | accepted hcall =>
      refine Standing.isSound_of_idle hsound.slot rfl (.inl ?_)
      -- A session that is being checked is subscribed to nothing, so it has no edit in its slot.
      rcases hpending with hnone | ⟨project, hstate⟩
      · exact hnone
      · cases (hsound.checking hcall).symm.trans hstate
  | refused hcall => exact Standing.isSound_of_idle hsound.slot rfl hpending
  | leaves hidle hstate =>
      exact Standing.isSound_of_idle hsound.slot.cancel (hidleCall hidle).1
        (.inl (Slot.pending_cancel _))
  | asks project hidle hstate =>
      refine Standing.isSound_of_wanted hsound.slot ?_ (Option.some_ne_none _) hstate (hidleCall hidle).2
      rcases hpending with hnone | ⟨project, hsubscribed⟩
      · exact hnone
      · cases hstate.symm.trans hsubscribed
  | moves project hidle hstate =>
      exact Standing.isSound_of_wanted hsound.slot.cancel (Slot.pending_cancel _)
        (Option.some_ne_none _) rfl (hidleCall hidle).2
  | loads tags hcall hturn =>
      exact hsound.goesOn hcall (Standing.announcementWanted_iff.mpr (.inl hcall)) rfl
  | fails hcall hturn => exact Standing.isSound_of_idle hsound.slot rfl hpending
  | registers hcall =>
      have hwanted := Standing.announcementWanted_iff.mpr (.inr (.inl ⟨_, hcall⟩))
      exact hsound.goesOn hcall hwanted rfl
  | joins hcall => exact Standing.isSound_of_idle hsound.slot rfl (.inr ⟨_, rfl⟩)
  | greets hcall => exact Standing.isSound_of_idle hsound.slot rfl (.inr ⟨_, rfl⟩)
  | edits hidle hstate =>
      exact Standing.isSound_of_idle hsound.slot.arm (hidleCall hidle).1 (.inr ⟨_, hstate⟩)
  | closes isDropped hidle hopen hstate =>
      exact Standing.isSound_of_idle hsound.slot.cancel (hidleCall hidle).1
        (.inl (Slot.pending_cancel _))
  | closesIn isDropped hidle hopen hstate =>
      exact Standing.isSound_of_idle hsound.slot.cancel (hidleCall hidle).1
        (.inl (Slot.pending_cancel _))
  | goes hidle hclosed => exact Standing.isSound_of_idle hsound.slot (hidleCall hidle).1 hpending

/-- What a slot has cancelled stays cancelled. -/
theorem Conduct.grows (h : Conduct service number standing isEnd later registry announcements) :
    later.slot.Grows standing.slot := by
  cases h with
  | leaves => exact Slot.grows_cancel _
  | moves => exact Slot.grows_cancel _
  | edits => exact Slot.grows_arm _
  | closes => exact Slot.grows_cancel _
  | closesIn => exact Slot.grows_cancel _
  | _ => exact .refl _

/-! ## The members of a project -/

/-- The registry has changed for one session only, which is now in these projects. -/
structure Registers (registry later : Registry Nat) (number : Nat) (isIn : Int → Prop) : Prop where
  self : ∀ {project}, number ∈ later.subscribers project ↔ isIn project
  others : ∀ {other project}, other ≠ number →
    (other ∈ later.subscribers project ↔ other ∈ registry.subscribers project)

variable {isIn isIn' : Int → Prop} {project : Int}

theorem registers_same
    (h : ∀ project, number ∈ service.registry.subscribers project ↔ isIn project)
    (hsame : ∀ project, isIn' project ↔ isIn project) :
    Registers service.registry service.registry number isIn' where
  self := (h _).trans (hsame _).symm
  others _ := Iff.rfl

theorem registers_join
    (h : ∀ project, number ∈ service.registry.subscribers project ↔ isIn project)
    (hjoined : ∀ other, isIn' other ↔ isIn other ∨ other = project) :
    Registers service.registry (service.registry.join project number) number isIn' where
  self := by
    intro other
    rw [Registry.mem_subscribers_join, h, hjoined]
    simp
  others := by
    intro other wanted hother
    rw [Registry.mem_subscribers_join]
    simp [hother]

theorem registers_leave
    (h : ∀ project, number ∈ service.registry.subscribers project ↔ isIn project)
    (hleft : ∀ other, isIn' other ↔ isIn other ∧ other ≠ project) :
    Registers service.registry (service.registry.leave project number) number isIn' where
  self := by
    intro other
    rw [Registry.mem_subscribers_leave, h, hleft]
    simp
  others := by
    intro other wanted hother
    rw [Registry.mem_subscribers_leave]
    simp [hother]

theorem Conduct.registers_isIn
    (h : Conduct service number standing isEnd later registry announcements)
    (hsound : standing.IsSound)
    (hmem : ∀ project, number ∈ service.registry.subscribers project ↔ standing.IsIn project) :
    Registers service.registry registry number later.IsIn := by
  -- One case for each thing a session can do: it stays where it is, leaves or joins a project.
  cases h with
  | answers => exact registers_same hmem fun _ => Iff.rfl
  | checks credential hidle hstate =>
      apply registers_same hmem
      intro project
      rw [Standing.isIn_of_idle hidle]
      simp [Standing.IsIn]
  | accepted hcall =>
      apply registers_same hmem
      intro project
      simp [Standing.IsIn, hcall, hsound.checking hcall]
  | refused hcall =>
      apply registers_same hmem
      intro project
      simp [Standing.IsIn, hcall]
  | leaves hidle hstate =>
      apply registers_leave hmem
      intro other
      rw [Standing.isIn_and_ne_iff_of_idle hidle hstate]
      simp [Standing.IsIn, Standing.left, (Standing.isIdle_iff.mp hidle).2]
  | asks project hidle hstate =>
      apply registers_same hmem
      intro other
      rw [Standing.isIn_of_idle hidle]
      simp [Standing.IsIn]
  | moves project hidle hstate =>
      apply registers_leave hmem
      intro other
      rw [Standing.isIn_and_ne_iff_of_idle hidle hstate]
      simp [Standing.IsIn, Standing.left]
  | loads tags hcall hturn =>
      apply registers_same hmem
      intro other
      simp [Standing.IsIn, hcall]
  | fails hcall hturn =>
      apply registers_same hmem
      intro other
      simp [Standing.IsIn, hcall]
  | registers hcall =>
      apply registers_join hmem
      intro other
      simp [Standing.IsIn, hcall, eq_comm]
  | joins hcall =>
      apply registers_join hmem
      intro other
      -- Who stands in line for an announcement is still in no project.
      have hwanted := Standing.announcementWanted_iff.mpr (.inr (.inl ⟨_, hcall⟩))
      rw [hsound.isIn_of_wanted (Option.ne_none_iff_exists'.mpr ⟨_, hwanted⟩)]
      simp [Standing.IsIn, hcall, eq_comm]
  | greets hcall =>
      apply registers_same hmem
      intro other
      have hwanted := Standing.announcementWanted_iff.mpr (.inr (.inr hcall))
      rw [hsound.isIn_of_wanted (Option.ne_none_iff_exists'.mpr ⟨_, hwanted⟩)]
      simp [Standing.IsIn, hcall]
  | edits hidle hstate => exact registers_same hmem fun _ => Iff.rfl
  | closes isDropped hidle hopen hstate =>
      apply registers_same hmem
      intro other
      rw [Standing.isIn_iff_of_unsubscribed hidle hstate]
      simp [Standing.IsIn, Standing.closed, (Standing.isIdle_iff.mp hidle).2]
  | closesIn isDropped hidle hopen hstate =>
      apply registers_leave hmem
      intro other
      rw [Standing.isIn_and_ne_iff_of_idle hidle hstate]
      simp [Standing.IsIn, Standing.closed, (Standing.isIdle_iff.mp hidle).2]
  | goes hidle hclosed => exact registers_same hmem fun _ => Iff.rfl

/-- Sessions and the registry fit together. -/
structure Seated (service : Service) : Prop where
  isSound : ∀ {number : Nat} {standing : Standing},
    service.standings[number]? = some standing → standing.IsSound
  mem_iff : ∀ {number : Nat} {project : Int}, number ∈ service.registry.subscribers project ↔
    ∃ standing : Standing, service.standings[number]? = some standing ∧ standing.IsIn project

theorem Seated.congr (h : service.Seated) (hsame : next.SameSeats service) : next.Seated where
  isSound hstanding := h.isSound (hsame.standings ▸ hstanding)
  mem_iff := by
    rw [hsame.standings, hsame.registry]
    exact h.mem_iff

theorem Seated.mem_iff_isIn (h : service.Seated)
    (hstanding : service.standings[number]? = some standing)
    (project : Int) : number ∈ service.registry.subscribers project ↔ standing.IsIn project := by
  rw [h.mem_iff, hstanding]
  simp

theorem Seated.conducts (h : service.Seated) (hconducts : service.Conducts number isEnd next) :
    next.Seated := by
  obtain ⟨standing, later, hstanding, hconduct, hstandings⟩ := hconducts
  obtain ⟨hlength, -⟩ := List.getElem?_eq_some_iff.mp hstanding
  have hsound := h.isSound hstanding
  obtain ⟨hself, hothers⟩ := hconduct.registers_isIn hsound (h.mem_iff_isIn hstanding)
  constructor
  · intro other standing' hother
    rw [hstandings, List.getElem?_set] at hother
    split at hother
    · obtain rfl := Option.some.inj hother
      exact hconduct.isSound hsound
    · exact h.isSound hother
  · intro other project
    rw [hstandings, List.getElem?_set]
    split
    · rename_i heq
      subst heq
      rw [hself]
      simp
    · rename_i hne
      rw [hothers (Ne.symm hne), h.mem_iff]

/-- A session that has just been opened is in no project. -/
theorem Seated.opened (h : service.Seated)
    (hstandings : next.standings = service.standings ++ [.fresh])
    (hregistry : next.registry = service.registry) : next.Seated where
  isSound := by
    intro number found hfound
    rw [hstandings] at hfound
    rcases of_getElem?_concat hfound with hold | ⟨-, rfl⟩
    · exact h.isSound hold
    · exact Standing.isSound_of_idle Slot.tidy_empty rfl (.inl rfl)
  mem_iff := by
    intro number project
    rw [hregistry, h.mem_iff, hstandings]
    constructor
    · rintro ⟨standing, hstanding, hin⟩
      obtain ⟨hlength, -⟩ := List.getElem?_eq_some_iff.mp hstanding
      exact ⟨standing, by rw [List.getElem?_append_left hlength, hstanding], hin⟩
    · rintro ⟨standing, hstanding, hin⟩
      rcases of_getElem?_concat hstanding with hold | ⟨-, rfl⟩
      · exact ⟨standing, hold, hin⟩
      · simp [Standing.fresh, Standing.IsIn] at hin

theorem Seated.happens {move : Move} (h : service.Seated) (hhappens : Happens service move next) :
    next.Seated := by
  cases hhappens.seatsGo with
  | stay hsame => exact h.congr hsame
  | conduct hconducts hend => exact h.conducts hconducts
  | opened hstandings hregistry => exact h.opened hstandings hregistry

/-- **Sessions and the registry fit together** at every moment of a run. -/
theorem Run.seated (run : Run) (moment : ℕ) : (run.state moment).Seated := by
  apply Run.invariant _ Seated.happens
  intro settings database supply service hstart
  obtain ⟨events, -, rfl⟩ := Option.map_eq_some_iff.mp hstart
  constructor
  · intro number standing hstanding
    cases hstanding
  · intro number project
    simp [standings, Registry.subscribers]

end Service

end PlcTags
