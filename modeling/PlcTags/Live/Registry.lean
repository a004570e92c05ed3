/-!
# The registry of subscribers

Which sessions have joined which project.  A project is listed only while somebody has
joined it.
-/

namespace PlcTags.Live

/-- The projects with subscribers, each with its sessions in the order in which they
joined. -/
structure Registry (Session : Type) where
  projects : List (Int × List Session) := []
  deriving DecidableEq, Repr

namespace Registry

variable {Session : Type} [DecidableEq Session]

/-- The sessions that have joined a project. -/
def subscribers (registry : Registry Session) (project : Int) : List Session :=
  (registry.projects.lookup project).getD []

def subscriberCount (registry : Registry Session) (project : Int) : Nat :=
  (registry.subscribers project).length

/-- The number of projects that somebody has joined. -/
def projectCount (registry : Registry Session) : Nat :=
  registry.projects.length

/-- The registry with these subscribers of a project; a project without any goes. -/
def withSubscribers (registry : Registry Session) (project : Int) (sessions : List Session) :
    Registry Session :=
  let others := registry.projects.filter (·.1 != project)
  ⟨if sessions.isEmpty then others else others ++ [(project, sessions)]⟩

/-- A session joins a project. -/
def join (registry : Registry Session) (project : Int) (session : Session) : Registry Session :=
  let sessions := registry.subscribers project
  if session ∈ sessions then registry
  else registry.withSubscribers project (sessions ++ [session])

/-- A session leaves a project. -/
def leave (registry : Registry Session) (project : Int) (session : Session) : Registry Session :=
  registry.withSubscribers project ((registry.subscribers project).filter (· != session))

end Registry

end PlcTags.Live
