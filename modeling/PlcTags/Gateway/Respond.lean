import PlcTags.Gateway.Basic
import PlcTags.Gateway.Route
import PlcTags.Json.Printer
import PlcTags.Transfer.Export
import PlcTags.Transfer.Import
import PlcTags.Wire.Message

/-!
# Answering requests

Before anything else a request must have a route and a method that the route knows, then
a credential if the route is protected, and then a project, a form and a content that can
be understood.
-/

namespace PlcTags

open Live

/-! ## Imports -/

namespace Gateway

/-- Imports a container.  There is no result while the import waits for others. -/
def importContainer (gateway : Gateway) (project : Int) (vendor : Vendor)
    (format : Option Container.Format) (bytes : ByteArray) :
    Option (Except TransferError ImportSummary) × Gateway :=
  match gateway.service.importContainer project vendor format bytes with
  | .error fault => (some (.error (.malformed fault)), gateway)
  | .ok service =>
    let gateway := { gateway with service }.settle
    match gateway.service.lastOutcome? with
    | some (.imported (.ok summary)) => (some (.ok summary), gateway)
    | some (.imported (.error failure)) => (some (.error (.failed failure)), gateway)
    | _ => (none, gateway)

/-! ## Errors -/

namespace Response

/-- An input that breaks a rule. -/
def refused (message : String) : Response :=
  .error 400 "BAD_REQUEST" message []

def ofFailure : Failure → Response
  | .notFound what => .error 404 "NOT_FOUND" what []
  | .invalidInput detail => refused detail
  | failure => .error 500 "COMMON_ERROR" failure.message []

def ofUnknownWord (fault : UnknownWord) : Response :=
  ofFailure (.ofUnknownWord fault)

def ofTransferError : TransferError → Response
  | .malformed fault =>
    .error 400 "MALFORMED_CONTAINER" fault.message [("diagnostic", fault.diagnostic.toJson)]
  | .failed failure => ofFailure failure

def ofRefusal : Access.Refusal → Response
  | .unavailable detail => .error 500 "INTERNAL_ERROR" detail []
  | refusal => .error 401 "UNAUTHORIZED" refusal.message []

end Response

/-! ## Parts of requests -/

/-- What a request gives, or the response to one that does not. -/
abbrev Reading (α : Type) := Except Response α

/-- The project in a path. -/
def readProject (part : String) : Reading Int :=
  match (pathText? part).bind projectNumber? with
  | some project => .ok project
  | none => .error (.misunderstood 400 "the path names no project")

/-- A value of the query that must be there. -/
def readRequired (form : Form) (name : String) : Reading String :=
  match form.required? name with
  | some value => .ok value
  | none => .error (.misunderstood 400 "the query lacks a field")

/-- A value of the query that may be missing. -/
def readOptional (form : Form) (name : String) : Reading (Option String) :=
  match form.optional? name with
  | some value => .ok value
  | none => .error (.misunderstood 400 "the query repeats a field")

/-- A word of a vocabulary. -/
def readWord {α : Type} (read : String → Except UnknownWord α) (text : String) : Reading α :=
  (read text).mapError .ofUnknownWord

/-- A container format; a blank text gives none. -/
def readFormat (text : Option String) : Reading (Option Container.Format) :=
  match text with
  | none => .ok none
  | some text =>
    if Text.isAllBlank text then .ok none
    else (readWord Container.Format.read text).map some

/-- What a request about containers says: the vendor and the format. -/
def readContainer (form : Form) : Reading (Vendor × Option Container.Format) := do
  let vendor ← readRequired form "vendor"
  let format ← readOptional form "format"
  let vendor ← readWord Vendor.read vendor
  return (vendor, ← readFormat format)

/-- The type of a content, without its parameters. -/
def essence (type : String) : String :=
  (Text.trimmed (String.ofList (type.toList.takeWhile (· ≠ ';')))).toLower

/-- Whether a type is that of JSON or of something written in JSON. -/
def isJsonType (type : String) : Bool :=
  let type := essence type
  type == "application/json" || type.startsWith "application/" && type.endsWith "+json"

/-- A content that should be JSON and is not, or holds something else than it should. -/
def misread : Json.Fault → Response
  | .notJson => .misunderstood 400 "the content is not JSON"
  | .mismatch => .misunderstood 422 "the content is not what it should be"

/-- What the JSON in front of the content of a request gives.  If it gives nothing, the
check says why. -/
def readJson {α : Type} (request : Request) (read : Json → Option α) (check : Json.Check) :
    Reading α :=
  if (request.shownHeader? "content-type").any isJsonType then
    let content := Text.Utf8.decodeFront request.body
    match (Json.first? content).bind read, check (Json.tokens content.toList).1 with
    | some value, _ => .ok value
    | none, .error fault => .error (misread fault)
    | none, .ok _ => .error (misread .mismatch)
  else .error (.misunderstood 415 "the content must be JSON")

/-! ## Reading requests -/

/-- The state of the service. -/
def health (gateway : Gateway) : Response :=
  .ofJson (.object [
    ("status", .string "ok"),
    ("module", .string "tagsync-server"),
    ("version", .string "0.1.0"),
    ("uptime_seconds", .int (gateway.service.now / 1000)),
    ("live_projects", .int gateway.service.registry.projectCount)])

def listTags (gateway : Gateway) (part : String) : Reading Response := do
  let project ← readProject part
  match gateway.service.database.list project with
  | .ok tags => return .ofJson (StoredTag.listToJson tags)
  | .error failure => throw (.ofFailure failure)

/-- A table is exported if no format is asked for. -/
def exportTagsOf (gateway : Gateway) (part : String) (form : Form) : Reading Response := do
  let project ← readProject part
  let (vendor, format) ← readContainer form
  let format := format.getD .csv
  let date := gateway.service.supply.stamp.time.render
  match gateway.service.database.exportProject date project vendor format with
  | .ok exported => return {
      status := 200
      content := some (.text format.contentType exported.content)
      fileName := some (format.fileName vendor project)
      skippedTags := some exported.skipped.length }
  | .error failure => throw (.ofFailure failure)

def validate (form : Form) : Reading Response := do
  let vendor ← readRequired form "vendor"
  let address ← readRequired form "address"
  let vendor ← readWord Vendor.read vendor
  let parsed := Address.parse vendor address
  return .ofJson (.object [
    ("valid", .bool parsed.toBool),
    ("vendor", .string vendor.word),
    ("address", .string address),
    match parsed with
    | .ok parsed => ("normalized", .string parsed.normalized)
    | .error fault => ("message", .string fault.message)])

/-- The tag to translate and the vendor to translate it to. -/
def tagAndTarget? (json : Json) : Option (Tag × Vendor) := do
  let fields ← json.fields? ["tag", "targetVendor"]
  let tag ← fields.required "tag" Tag.ofJson?
  let target ← fields.required "targetVendor" (Json.vocabulary? Vendor.ofWord?)
  return (tag, target)

/-- The check of what `tagAndTarget?` reads. -/
def tagAndTargetCheck : Json.Check := .record [
  { name := "tag", check := Tag.check },
  { name := "targetVendor", check := .word fun word => (Vendor.ofWord? word).isSome }]

def translate (request : Request) : Reading Response := do
  let (tag, target) ← readJson request tagAndTarget? tagAndTargetCheck
  match tag.translate target with
  | .ok translated => return .ofJson translated.toRecord.toJson
  | .error fault => throw (.refused fault.message)

/-- A request for a live session that does not switch to the protocol of sockets, or
cannot. -/
def refuseSocket (request : Request) : Response :=
  let header (name : String) := ((request.header? name).getD "").toLower
  if request.method ≠ "GET" then .misunderstood 405 "a connection is upgraded with GET"
  else if 1 < ((header "connection").splitOn "upgrade").length &&
      header "upgrade" == "websocket" && header "sec-websocket-version" == "13" &&
      (request.header? "sec-websocket-key").isSome then
    .misunderstood 426 "the connection cannot be upgraded"
  else .misunderstood 400 "the connection must be upgraded"

/-- Whose events are asked for. -/
def readEventProject (form : Form) : Reading (Option Int) := do
  match ← readOptional form "project" with
  | none => return none
  | some text =>
    match projectNumber? text with
    | some project => return some project
    | none => throw (.misunderstood 400 "the query names no project")

/-! ## Requests with effects -/

/-- The credential of a request. -/
def credential? (request : Request) : Option String :=
  (request.shownHeader? "authorization").bind Access.bearerToken?

/-- Who sends a request. -/
def authorize (gateway : Gateway) (request : Request) : Reading String :=
  (Access.authenticate gateway.service.settings.auth gateway.service.database
    (credential? request)).mapError .ofRefusal

/-- What an import is asked for: the project, the vendor and the format. -/
def readImport (part : String) (request : Request) :
    Reading (Int × Vendor × Option Container.Format) := do
  let project ← readProject part
  let (vendor, format) ← readContainer (.read request.query)
  if request.body.toList.all Container.Format.isBlankByte then
    throw (.refused "empty import body")
  return (project, vendor, format)

/-- The response to a request for an import. -/
def respondImport (gateway : Gateway) (part : String) (request : Request) :
    Option Response × Gateway :=
  match readImport part request with
  | .error response => (some response, gateway)
  | .ok (project, vendor, format) =>
    let (result, gateway) := gateway.importContainer project vendor format request.body
    (result.map fun
      | .ok summary => .ofJson summary.toJson
      | .error fault => .ofTransferError fault, gateway)

def Response.ofReading : Reading Response → Response
  | .ok response => response
  | .error response => response

/-- The response to a request for a stream of events, which ends only if nothing but its
head is asked for. -/
def respondEvents (form : Form) (request : Request) : Option Response :=
  match readEventProject form with
  | .ok _ =>
    if request.method = "HEAD" then
      some { status := 200, content := some (.text "text/event-stream" "") }
    else none
  | .error response => some response

/-- The response of a route to a request with a method that it knows. -/
def respondRoute (gateway : Gateway) (route : Route) (request : Request) :
    Option Response × Gateway :=
  let form := Form.read request.query
  match route with
  | .health => (some gateway.health, gateway)
  | .events => (respondEvents form request, gateway)
  | .socket => (some (refuseSocket request), gateway)
  | .tags project => (some (.ofReading (gateway.listTags project)), gateway)
  | .importing project => gateway.respondImport project request
  | .exporting project => (some (.ofReading (gateway.exportTagsOf project form)), gateway)
  | .validate => (some (.ofReading (validate form)), gateway)
  | .translate => (some (.ofReading (translate request)), gateway)

/-- The response in full to a request, once there is one. -/
def respondInFull (gateway : Gateway) (request : Request) : Option Response × Gateway :=
  if request.method = "OPTIONS" then (some { status := 200 }, gateway)
  else match Route.ofPath? request.path with
    | none => (some { status := 404 }, gateway)
    | some route =>
      if !route.methods.contains request.method then (some { status := 405 }, gateway)
      else if route.isProtected then
        match gateway.authorize request with
        | .error response => (some response, gateway)
        | .ok _ => gateway.respondRoute route request
      else gateway.respondRoute route request

/-- The response to a request, once there is one.  A request for the head of a response
gets no more than that. -/
def respond (gateway : Gateway) (request : Request) : Option Response × Gateway :=
  let (response, gateway) := gateway.respondInFull request
  (if request.method = "HEAD" then response.map (·.headOnly) else response, gateway)

/-! ## Connections over the network -/

/-- The credential of a client that opens a socket: in its header, or in the form.  There
is no socket with a form that repeats it. -/
def socketCredential? (query : String) (authorization : Option String) :
    Option (Option String) := do
  let token ← (Form.read query).optional? "token"
  let request : Request :=
    { target := "/ws", headers := (authorization.map (("authorization", ·))).toList }
  return (credential? request).or token

end Gateway

end PlcTags
