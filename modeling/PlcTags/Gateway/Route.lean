import PlcTags.Gateway.Form
import PlcTags.Gateway.Message

/-!
# Routes

What there is to ask for: the state of the service, events and live sessions for
everybody, and all that deals with tags for those who show a credential.
-/

namespace PlcTags.Gateway

inductive Route where
  | health
  | events
  | socket
  /-- The tags of a project, by the part of the path that names it. -/
  | tags (project : String)
  | importing (project : String)
  | exporting (project : String)
  | validate
  | translate
  deriving DecidableEq, Repr

namespace Route

/-- The route of a path.  A project is named by a piece that is not empty. -/
def ofPath? (path : String) : Option Route :=
  match (pieces '/' path.toList).map String.ofList with
  | ["", "health"] => some health
  | ["", "events"] => some events
  | ["", "ws"] => some socket
  | ["", "api", "address", "validate"] => some validate
  | ["", "api", "translate"] => some translate
  | ["", "api", "projects", project, what] =>
    if project.isEmpty then none
    else match what with
      | "tags" => some (tags project)
      | "import" => some (.importing project)
      | "export" => some (.exporting project)
      | _ => none
  | _ => none

/-- What is read can also be asked for without its content. -/
def methods : Route → List String
  | health | events | socket | tags _ | .exporting _ | validate => ["GET", "HEAD"]
  | .importing _ | translate => ["POST"]

/-- A credential is needed. -/
def isProtected : Route → Bool
  | health | events | socket => false
  | tags _ | .importing _ | .exporting _ | validate | translate => true

end Route

/-- A project as a path or a form names it: a decimal number of 64 bits, perhaps with a
sign. -/
def projectNumber? (text : String) : Option Int :=
  let number? (digits : List Char) : Option Int :=
    if Json.isDigits digits then some (Json.natOf digits) else none
  let value : Option Int := match text.toList with
    | '-' :: digits => (number? digits).map (- ·)
    | '+' :: digits => number? digits
    | digits => number? digits
  value.filter fun n => Json.minInt64 ≤ n ∧ n ≤ Json.maxInt64

end PlcTags.Gateway
