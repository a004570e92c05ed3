import PlcTags.Events.Bus
import PlcTags.Json.Reader
import PlcTags.Live.Job
import PlcTags.Live.Message
import PlcTags.Wire.Tag

/-!
# Messages, events and reports as JSON

A message is an object that names its kind under `type`.  Where it is an array, its
first item is the kind and the others are the fields in their order.
-/

namespace PlcTags

/-! ## Variants -/

/-- The kind of a message and the rest of it.  The kind stands once. -/
def Json.variant? : Json → Option (String × Json)
  | .object members =>
    match members.filter (·.1 == "type") with
    | [(_, .string kind)] => some (kind, .object (members.filter (·.1 != "type")))
    | _ => none
  | .array (.string kind :: items) => some (kind, .array items)
  | _ => none

/-- A message without fields may hold others, but no items. -/
def Json.isUnit : Json → Bool
  | .object _ => true
  | .array items => items.isEmpty
  | _ => false

/-- A message of some kind with its fields. -/
def Json.ofVariant (kind : String) (members : List (String × Json)) : Json :=
  .object (("type", .string kind) :: members)

/-! ## Stored tags -/

namespace StoredTag

def toJson (stored : StoredTag) : Json :=
  .object ([("id", .string stored.id.render), ("projectId", .int stored.project)] ++
    stored.tag.toMembers ++
    [("createdAt", .string stored.createdAt.render),
      ("updatedAt", .string stored.updatedAt.render)])

/-- A stored tag is an object that holds the fields of its tag among its own. -/
def ofJson? (json : Json) : Option StoredTag := do
  let fields ← json.fields? (["id", "projectId", "createdAt", "updatedAt"] ++ Tag.fieldNames)
  if fields.byPlace then none
  let id ← fields.required "id" fun json => json.string?.bind Uuid.read?
  let project ← fields.required "projectId" Json.int64?
  let tag ← Tag.ofFields? fields
  let createdAt ← fields.required "createdAt" fun json => json.string?.bind Instant.read?
  let updatedAt ← fields.required "updatedAt" fun json => json.string?.bind Instant.read?
  return { id, project, tag, createdAt, updatedAt }

def listToJson (tags : List StoredTag) : Json :=
  .array (tags.map toJson)

end StoredTag

/-! ## Messages of clients -/

namespace Live

def ClientMessage.toJson : ClientMessage → Json
  | auth token => .ofVariant "auth" [("token", .string token)]
  | subscribe project => .ofVariant "subscribe" [("projectId", .int project)]
  | unsubscribe => .ofVariant "unsubscribe" []
  | syncEdit edit => .ofVariant "syncEdit" [
      ("vendor", .string edit.vendor.word),
      ("sourceText", .string edit.sourceText),
      ("debounceMs", (edit.debounceMs.map fun delay => Json.int delay).getD .null),
      ("generated", .bool edit.generated)]
  | ping => .ofVariant "ping" []

def Edit.ofJson? (json : Json) : Option Edit := do
  let fields ← json.fields? ["vendor", "sourceText", "debounceMs", "generated"]
  let vendor ← fields.required "vendor" (Json.vocabulary? Vendor.ofWord?)
  let sourceText ← fields.required "sourceText" Json.string?
  let debounceMs ← fields.withDefault "debounceMs" none (Json.nullable? Json.nat64?)
  let generated ← fields.withDefault "generated" false Json.bool?
  return { vendor, sourceText, debounceMs, generated }

def ClientMessage.ofJson? (json : Json) : Option ClientMessage := do
  let (kind, content) ← json.variant?
  match kind with
  | "auth" => auth <$> (← content.fields? ["token"]).required "token" Json.string?
  | "subscribe" => subscribe <$> (← content.fields? ["projectId"]).required "projectId" Json.int64?
  | "unsubscribe" => if content.isUnit then some unsubscribe else none
  | "syncEdit" => syncEdit <$> Edit.ofJson? content
  | "ping" => if content.isUnit then some ping else none
  | _ => none

/-- The message that a text frame holds. -/
def ClientMessage.parse? (text : String) : Option ClientMessage :=
  (Json.parse? text).bind ofJson?

/-! ## Messages of the service -/

namespace ServerMessage

def toJson : ServerMessage → Json
  | authenticated identity => .ofVariant "authenticated" [("identity", .string identity)]
  | subscribed project tags => .ofVariant "subscribed"
      [("projectId", .int project), ("tags", StoredTag.listToJson tags)]
  | unsubscribed project => .ofVariant "unsubscribed" [("projectId", .int project)]
  | syncQueued sync => .ofVariant "syncQueued" [("syncId", .int sync)]
  | syncComplete sync project inserted updated unchanged diagnostics =>
    .ofVariant "syncComplete" [
      ("syncId", .int sync),
      ("projectId", .int project),
      ("inserted", .int inserted),
      ("updated", .int updated),
      ("unchanged", .int unchanged),
      ("diagnostics", Diagnostic.listToJson diagnostics)]
  | tagsUpdated project tags => .ofVariant "tagsUpdated"
      [("projectId", .int project), ("tags", StoredTag.listToJson tags)]
  | error text => .ofVariant "error" [("message", .string text)]
  | pong => .ofVariant "pong" []

/-- The project and the tags of a message that carries them. -/
def tags? (content : Json) : Option (Int × List StoredTag) := do
  let fields ← content.fields? ["projectId", "tags"]
  let project ← fields.required "projectId" Json.int64?
  let tags ← fields.required "tags" (Json.list? StoredTag.ofJson?)
  return (project, tags)

def syncComplete? (content : Json) : Option ServerMessage := do
  let fields ← content.fields?
    ["syncId", "projectId", "inserted", "updated", "unchanged", "diagnostics"]
  let sync ← fields.required "syncId" Json.nat64?
  let project ← fields.required "projectId" Json.int64?
  let inserted ← fields.required "inserted" Json.nat64?
  let updated ← fields.required "updated" Json.nat64?
  let unchanged ← fields.required "unchanged" Json.nat64?
  let diagnostics ← fields.required "diagnostics" (Json.list? Diagnostic.ofJson?)
  return syncComplete sync project inserted updated unchanged diagnostics

def ofJson? (json : Json) : Option ServerMessage := do
  let (kind, content) ← json.variant?
  match kind with
  | "authenticated" =>
    authenticated <$> (← content.fields? ["identity"]).required "identity" Json.string?
  | "subscribed" => (fun (project, tags) => subscribed project tags) <$> tags? content
  | "unsubscribed" =>
    unsubscribed <$> (← content.fields? ["projectId"]).required "projectId" Json.int64?
  | "syncQueued" => syncQueued <$> (← content.fields? ["syncId"]).required "syncId" Json.nat64?
  | "syncComplete" => syncComplete? content
  | "tagsUpdated" => (fun (project, tags) => tagsUpdated project tags) <$> tags? content
  | "error" => error <$> (← content.fields? ["message"]).required "message" Json.string?
  | "pong" => if content.isUnit then some pong else none
  | _ => none

end ServerMessage

end Live

/-! ## Events -/

namespace TagEvent

def toJson : TagEvent → Json
  | event@(reconciled project inserted updated errors time) => .ofVariant event.kind [
      ("project_id", .int project),
      ("inserted", .int inserted),
      ("updated", .int updated),
      ("errors", .int errors),
      ("timestamp", .string time.render)]
  | event@(imported project vendor inserted updated errors time) => .ofVariant event.kind [
      ("project_id", .int project),
      ("vendor", .string vendor.word),
      ("inserted", .int inserted),
      ("updated", .int updated),
      ("errors", .int errors),
      ("timestamp", .string time.render)]
  | event@(opened session identity time) => .ofVariant event.kind [
      ("session_id", .string session.render),
      ("identity", .string identity),
      ("timestamp", .string time.render)]
  | event@(closed session time) => .ofVariant event.kind [
      ("session_id", .string session.render),
      ("timestamp", .string time.render)]

def ofJson? (json : Json) : Option TagEvent := do
  let (kind, content) ← json.variant?
  let time (fields : Json.Fields) :=
    fields.required "timestamp" fun json => json.string?.bind Instant.read?
  let session (fields : Json.Fields) :=
    fields.required "session_id" fun json => json.string?.bind Uuid.read?
  match kind with
  | "TagsReconciled" =>
    let fields ← content.fields? ["project_id", "inserted", "updated", "errors", "timestamp"]
    return reconciled (← fields.required "project_id" Json.int64?)
      (← fields.required "inserted" Json.nat64?) (← fields.required "updated" Json.nat64?)
      (← fields.required "errors" Json.nat64?) (← time fields)
  | "ImportCompleted" =>
    let fields ← content.fields?
      ["project_id", "vendor", "inserted", "updated", "errors", "timestamp"]
    return imported (← fields.required "project_id" Json.int64?)
      (← fields.required "vendor" (Json.vocabulary? Vendor.ofWord?))
      (← fields.required "inserted" Json.nat64?) (← fields.required "updated" Json.nat64?)
      (← fields.required "errors" Json.nat64?) (← time fields)
  | "SessionOpened" =>
    let fields ← content.fields? ["session_id", "identity", "timestamp"]
    return opened (← session fields) (← fields.required "identity" Json.string?) (← time fields)
  | "SessionClosed" =>
    let fields ← content.fields? ["session_id", "timestamp"]
    return closed (← session fields) (← time fields)
  | _ => none

end TagEvent

/-! ## Reports -/

def MergeReport.toJson (report : MergeReport) : Json :=
  .object [
    ("inserted", .int report.inserted),
    ("updated", .int report.updated),
    ("unchanged", .int report.unchanged),
    ("errors", Diagnostic.listToJson report.errors)]

/-- An import that has a summary has succeeded. -/
def Live.ImportSummary.toJson (summary : Live.ImportSummary) : Json :=
  .object [
    ("success", .bool true),
    ("insertedCount", .int summary.inserted),
    ("updatedCount", .int summary.updated),
    ("unchangedCount", .int summary.unchanged),
    ("errors", Diagnostic.listToJson summary.errors)]

end PlcTags
