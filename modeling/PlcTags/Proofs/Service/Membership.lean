import Mathlib.Data.Set.Card
import PlcTags.Proofs.Service.Closing

/-!
# Who is in which project

Who has joined a project is kept in two places, by the session and by the registry.  Both
agree about every session that is not in the middle of a call, and a session is never in
two projects (`Run.agrees`).  The registry lists a project just while somebody is in it
(`Registry.IsTidy`), so it counts the projects that have subscribers.
-/

namespace PlcTags

open Live

/-! ## The lists of the registry -/

namespace Live.Registry

variable {Session : Type} {registry : Registry Session} {project : Int} {sessions : List Session}

/-- A project is listed once at most and with somebody in it, and nobody is in it twice. -/
structure IsTidy (registry : Registry Session) : Prop where
  projects : (registry.projects.map Prod.fst).Nodup
  subscribers : ∀ entry ∈ registry.projects, entry.2 ≠ [] ∧ entry.2.Nodup

theorem isTidy_empty : ({} : Registry Session).IsTidy :=
  ⟨List.nodup_nil, List.forall_mem_nil _⟩

theorem subscribers_of_mem (h : registry.IsTidy)
    (hentry : (project, sessions) ∈ registry.projects) :
    registry.subscribers project = sessions := by
  have hlookup : registry.projects.lookup project = some sessions := by
    obtain ⟨before, after, hprojects⟩ := List.append_of_mem hentry
    have hdistinct := h.projects
    rw [hprojects, List.map_append, List.nodup_append] at hdistinct
    refine List.lookup_eq_some_iff.mpr ⟨before, after, hprojects, ?_⟩
    intro entry hbefore
    have hne : entry.1 ≠ project :=
      hdistinct.2.2 _ (List.mem_map_of_mem hbefore) _ List.mem_cons_self
    simpa using Ne.symm hne
  rw [Registry.subscribers, hlookup, Option.getD_some]

theorem mem_projects_of_mem_subscribers {session : Session}
    (h : session ∈ registry.subscribers project) :
    (project, registry.subscribers project) ∈ registry.projects := by
  unfold Registry.subscribers at *
  cases hlookup : registry.projects.lookup project with
  | none => simp [hlookup] at h
  | some sessions =>
      obtain ⟨before, after, hprojects, -⟩ := List.lookup_eq_some_iff.mp hlookup
      simp [hprojects]

theorem IsTidy.nodup_subscribers (h : registry.IsTidy) (project : Int) :
    (registry.subscribers project).Nodup := by
  cases hsessions : registry.subscribers project with
  | nil => exact List.nodup_nil
  | cons session rest =>
      have hmem : session ∈ registry.subscribers project := by simp [hsessions]
      rw [← hsessions]
      exact (h.subscribers _ (mem_projects_of_mem_subscribers hmem)).2

/-- A project is listed just while somebody is in it. -/
theorem IsTidy.mem_projects_iff (h : registry.IsTidy) :
    project ∈ registry.projects.map Prod.fst ↔
      ∃ session, session ∈ registry.subscribers project := by
  constructor
  · intro hmem
    obtain ⟨⟨listed, sessions⟩, hentry, rfl⟩ := List.mem_map.mp hmem
    rw [subscribers_of_mem h hentry]
    exact List.exists_mem_of_ne_nil _ (h.subscribers _ hentry).1
  · rintro ⟨session, hsession⟩
    exact List.mem_map_of_mem (f := Prod.fst) (mem_projects_of_mem_subscribers hsession)

/-- The registry counts the projects that somebody is in. -/
theorem IsTidy.projectCount_eq (h : registry.IsTidy) :
    registry.projectCount =
      {project | ∃ session, session ∈ registry.subscribers project}.ncard := by
  have hlisted : {project | ∃ session, session ∈ registry.subscribers project} =
      ((registry.projects.map Prod.fst).toFinset : Set Int) := by
    ext project
    rw [List.coe_toFinset, Set.mem_ofPred_eq, Set.mem_ofPred_eq, h.mem_projects_iff]
  rw [hlisted, Set.ncard_coe_finset, List.toFinset_card_of_nodup h.projects, List.length_map,
    projectCount]

theorem IsTidy.withSubscribers (h : registry.IsTidy) (project : Int) (hsessions : sessions.Nodup) :
    (registry.withSubscribers project sessions).IsTidy := by
  have hothers : (registry.projects.filter (·.1 != project)).Sublist registry.projects :=
    List.filter_sublist
  have hprojects := h.projects.sublist (hothers.map Prod.fst)
  unfold Registry.withSubscribers
  dsimp only
  split
  · exact ⟨hprojects, fun entry hentry => h.subscribers entry (hothers.subset hentry)⟩
  · rename_i hsome
    constructor
    · show (List.map Prod.fst (_ ++ [(project, sessions)])).Nodup
      rw [List.map_append, List.nodup_append]
      refine ⟨hprojects, List.nodup_singleton _, ?_⟩
      intro listed hlisted other hother
      obtain rfl := List.mem_singleton.mp hother
      obtain ⟨entry, hentry, rfl⟩ := List.mem_map.mp hlisted
      simpa using (List.mem_filter.mp hentry).2
    · intro entry hentry
      rcases List.mem_append.mp hentry with hold | hnew
      · exact h.subscribers entry (hothers.subset hold)
      · obtain rfl := List.mem_singleton.mp hnew
        exact ⟨fun hnone => hsome (List.isEmpty_iff.mpr hnone), hsessions⟩

variable [DecidableEq Session]

theorem IsTidy.join (h : registry.IsTidy) (project : Int) (session : Session) :
    (registry.join project session).IsTidy := by
  unfold Registry.join
  dsimp only
  split
  · exact h
  · rename_i hnew
    refine h.withSubscribers project ?_
    rw [← List.concat_eq_append]
    exact (h.nodup_subscribers project).concat hnew

theorem IsTidy.leave (h : registry.IsTidy) (project : Int) (session : Session) :
    (registry.leave project session).IsTidy :=
  h.withSubscribers project ((h.nodup_subscribers project).filter _)

end Live.Registry

namespace Service

variable {service next : Service} {number : Nat} {project other : Int}

/-! ## The registry of a run -/

theorem Conduct.isTidy {standing later : Standing} {isEnd : Bool} {registry : Registry Nat}
    {announcements : Locks}
    (h : Conduct service number standing isEnd later registry announcements)
    (htidy : service.registry.IsTidy) : registry.IsTidy := by
  cases h with
  | leaves | moves | closesIn => exact htidy.leave _ _
  | registers | joins => exact htidy.join _ _
  | _ => exact htidy

theorem Happens.isTidy {move : Move} (htidy : service.registry.IsTidy)
    (h : Happens service move next) : next.registry.IsTidy := by
  cases h.seatsGo with
  | stay hsame => rwa [hsame.registry]
  | conduct hconducts hend =>
      obtain ⟨standing, later, -, hconduct, -⟩ := hconducts
      exact hconduct.isTidy htidy
  | opened hstandings hregistry => rwa [hregistry]

theorem Run.isTidy (run : Run) (moment : ℕ) : (run.state moment).registry.IsTidy := by
  refine Run.invariant ?_ Happens.isTidy run moment
  intro settings database supply service hstart
  obtain ⟨events, -, rfl⟩ := Option.map_eq_some_iff.mp hstart
  exact Registry.isTidy_empty

/-! ## The registry and the sessions -/

/-- Nobody is in two projects, not even in the middle of a call. -/
theorem Seated.project_eq (h : service.Seated)
    (hproject : number ∈ service.registry.subscribers project)
    (hother : number ∈ service.registry.subscribers other) : project = other := by
  obtain ⟨standing, hstanding, hin⟩ := h.mem_iff.mp hproject
  have hin' := (h.mem_iff_isIn hstanding other).mp hother
  have hsound := h.isSound hstanding
  by_cases hwanted : standing.announcementWanted = none
  · have hcall : ∀ wanted, standing.call ≠ some (.greeting wanted) := by
      intro wanted hcall
      cases (Standing.announcementWanted_iff.mpr (.inr (.inr hcall))).symm.trans hwanted
    have hstate := hin.resolve_right (hcall project)
    have hstate' := hin'.resolve_right (hcall other)
    exact SessionState.subscribed.inj (hstate.symm.trans hstate')
  · rw [hsound.isIn_of_wanted hwanted] at hin hin'
    exact Call.greeting.inj (Option.some.inj (hin.symm.trans hin'))

/-- The sessions and the registry agree about who is in which project. -/
structure RegistryAgrees (service : Service) : Prop where
  /-- A session without a call is a subscriber of the project that it is subscribed to, and of
  no other one. -/
  mem_iff : ∀ {number : Nat} {session : Session} {project : Int},
    service.sessions[number]? = some session → session.call = none →
      (number ∈ service.registry.subscribers project ↔ session.state = .subscribed project)
  /-- Nobody is in two projects, -/
  unique : ∀ {number : Nat} {project other : Int},
    number ∈ service.registry.subscribers project →
      number ∈ service.registry.subscribers other → project = other
  /-- or in one project twice. -/
  nodup : ∀ project, (service.registry.subscribers project).Nodup
  /-- A project is listed just while somebody is in it. -/
  listed_iff : ∀ project, project ∈ service.registry.projects.map Prod.fst ↔
    service.registry.subscribers project ≠ []
  projectCount : service.registry.projectCount =
    {project | ∃ number, number ∈ service.registry.subscribers project}.ncard
  /-- While no call is going on, these are the projects that sessions are subscribed to. -/
  projectCount_of_idle : (∀ session ∈ service.sessions, session.call = none) →
    service.registry.projectCount =
      {project | ∃ session ∈ service.sessions, session.state = .subscribed project}.ncard

theorem Seated.mem_iff_state (h : service.Seated) {session : Session}
    (hsession : service.sessions[number]? = some session) (hcall : session.call = none) :
    number ∈ service.registry.subscribers project ↔ session.state = .subscribed project := by
  rw [h.mem_iff_isIn (getElem?_standings hsession)]
  simp [Standing.IsIn, Session.standing, hcall]

/-- While no call is going on, somebody is in a project if a session is subscribed to it. -/
theorem Seated.exists_mem_iff (h : service.Seated)
    (hidle : ∀ session ∈ service.sessions, session.call = none) :
    (∃ number, number ∈ service.registry.subscribers project) ↔
      ∃ session ∈ service.sessions, session.state = .subscribed project := by
  constructor
  · rintro ⟨number, hmem⟩
    obtain ⟨standing, hstanding, -⟩ := h.mem_iff.mp hmem
    obtain ⟨session, hsession, -⟩ := exists_of_getElem?_standings hstanding
    have hthere := List.mem_of_getElem? hsession
    exact ⟨session, hthere, (h.mem_iff_state hsession (hidle session hthere)).mp hmem⟩
  · rintro ⟨session, hthere, hstate⟩
    obtain ⟨number, hsession⟩ := List.mem_iff_getElem?.mp hthere
    exact ⟨number, (h.mem_iff_state hsession (hidle session hthere)).mpr hstate⟩

namespace Run

/-- **The sessions and the registry agree** at every moment of a run. -/
theorem agrees (run : Run) (moment : ℕ) : (run.state moment).RegistryAgrees where
  mem_iff hsession hcall := (run.seated moment).mem_iff_state hsession hcall
  unique := (run.seated moment).project_eq
  nodup := (run.isTidy moment).nodup_subscribers
  listed_iff project := by
    rw [(run.isTidy moment).mem_projects_iff, ne_eq, List.eq_nil_iff_forall_not_mem, not_forall_not]
  projectCount := (run.isTidy moment).projectCount_eq
  projectCount_of_idle hidle := by
    rw [(run.isTidy moment).projectCount_eq]
    congr 1
    ext project
    exact (run.seated moment).exists_mem_iff hidle

/-- Two sessions have joined a project.  One of them asks for another project, which cannot
be listed. -/
def strandedRun : Run where
  first := openService
  isNew := isNew_openService
  moves moment := [
    Move.openSession 8, .openSession 8, .authenticate 0 none, .step (.session 0),
    .authenticate 1 none, .step (.session 1), .handle 0 (.subscribe 7), .step (.session 0),
    .step (.session 0), .handle 1 (.subscribe 7), .step (.session 1), .step (.session 1),
    .handle 0 (.subscribe 8), .access { refusals := { lists := true } },
    .step (.session 0)].getD moment (.wait 0)

theorem agrees_stranded : ∃ session,
    (strandedRun.state 15).sessions[0]? = some session ∧ session.call = none ∧
      (∀ project, 0 ∉ (strandedRun.state 15).registry.subscribers project) ∧
      {project | ∃ number, number ∈ (strandedRun.state 15).registry.subscribers project}.ncard =
        1 := by
  have hagrees := strandedRun.agrees 15
  have hshape : (strandedRun.state 15).sessions[0]?.map
      (fun session => (session.call, session.state)) = some (none, .authenticated) := by
    decide +kernel
  obtain ⟨session, hsession, hshape⟩ := Option.map_eq_some_iff.mp hshape
  obtain ⟨hcall, hstate⟩ := Prod.mk.inj hshape
  refine ⟨session, hsession, hcall, ?_, ?_⟩
  · intro project
    rw [hagrees.mem_iff hsession hcall, hstate]
    exact nofun
  · rw [← hagrees.projectCount]
    decide +kernel

end Run

end Service

end PlcTags
