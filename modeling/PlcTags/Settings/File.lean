import PlcTags.Settings.Basic
import PlcTags.Toml.Reader
import PlcTags.Toml.Writer

/-!
# The settings file

Settings are kept in a TOML file.  Every section may be missing, and so may every
setting, except that a token always comes with its identity.
-/

namespace PlcTags

/-! ## From values -/

namespace SyncSettings

def fieldNames : List String :=
  ["debounce_ms", "min_debounce_ms", "max_debounce_ms", "outbound_queue", "event_capacity",
    "handshake_timeout_ms"]

def ofJson? (json : Json) : Option SyncSettings := do
  let fields ← json.fields? fieldNames
  let default : SyncSettings := {}
  let number (name : String) (value : Nat) := fields.withDefault name value Json.nat64?
  let debounceMs ← number "debounce_ms" default.debounceMs
  let minDebounceMs ← number "min_debounce_ms" default.minDebounceMs
  let maxDebounceMs ← number "max_debounce_ms" default.maxDebounceMs
  let outboundQueue ← number "outbound_queue" default.outboundQueue
  let eventCapacity ← number "event_capacity" default.eventCapacity
  let handshakeTimeoutMs ← number "handshake_timeout_ms" default.handshakeTimeoutMs
  return { debounceMs, minDebounceMs, maxDebounceMs, outboundQueue, eventCapacity,
           handshakeTimeoutMs }

def toMembers (settings : SyncSettings) : List (String × Nat) := [
  ("debounce_ms", settings.debounceMs),
  ("min_debounce_ms", settings.minDebounceMs),
  ("max_debounce_ms", settings.maxDebounceMs),
  ("outbound_queue", settings.outboundQueue),
  ("event_capacity", settings.eventCapacity),
  ("handshake_timeout_ms", settings.handshakeTimeoutMs)]

end SyncSettings

def TokenEntry.ofJson? (json : Json) : Option TokenEntry := do
  let fields ← json.fields? ["token", "identity"]
  let token ← fields.required "token" Json.string?
  let identity ← fields.required "identity" Json.string?
  return { token, identity }

def AuthSettings.ofJson? (json : Json) : Option AuthSettings := do
  let fields ← json.fields? ["disabled", "tokens"]
  let disabled ← fields.withDefault "disabled" false Json.bool?
  let tokens ← fields.withDefault "tokens" [] (Json.list? TokenEntry.ofJson?)
  return { disabled, tokens }

def LoggingSettings.ofJson? (json : Json) : Option LoggingSettings := do
  let fields ← json.fields? ["level"]
  let level ← fields.withDefault "level" ({} : LoggingSettings).level Json.string?
  return { level }

def ServerSettings.ofJson? (json : Json) : Option ServerSettings := do
  let fields ← json.fields? ["bind"]
  let bind ← fields.withDefault "bind" ({} : ServerSettings).bind Json.string?
  return { bind }

namespace Settings

def ofJson? (json : Json) : Option Settings := do
  let fields ← json.fields? ["root_folder", "logging", "server", "sync", "auth"]
  let rootFolder ← fields.withDefault "root_folder" none (Json.nullable? Json.string?)
  let logging ← fields.withDefault "logging" {} LoggingSettings.ofJson?
  let server ← fields.withDefault "server" {} ServerSettings.ofJson?
  let sync ← fields.withDefault "sync" {} SyncSettings.ofJson?
  let auth ← fields.withDefault "auth" {} AuthSettings.ofJson?
  return { rootFolder, logging, server, sync, auth }

def toJson (settings : Settings) : Json :=
  .object [
    ("root_folder", (settings.rootFolder.map Json.string).getD .null),
    ("logging", .object [("level", .string settings.logging.level)]),
    ("server", .object [("bind", .string settings.server.bind)]),
    ("sync", .object (settings.sync.toMembers.map fun (name, value) => (name, .int value))),
    ("auth", .object [
      ("disabled", .bool settings.auth.disabled),
      ("tokens", .array (settings.auth.tokens.map fun entry =>
        .object [("token", .string entry.token), ("identity", .string entry.identity)]))])]

/-! ## The file -/

/-- The settings that a file holds. -/
def read? (file : String) : Option Settings :=
  (Toml.parse? file).bind ofJson?

/-- A line that gives a string to a name. -/
def stringLine (name value : String) : String :=
  name ++ " = " ++ Toml.renderString value ++ "\n"

/-- The sections of the file that holds the settings, with an empty line between any
two of them. -/
def sections (settings : Settings) : List String :=
  (match settings.rootFolder with
    | some folder => [stringLine "root_folder" folder]
    | none => []) ++
  ["[logging]\n" ++ stringLine "level" settings.logging.level,
    "[server]\n" ++ stringLine "bind" settings.server.bind,
    "[sync]\n" ++ String.join (settings.sync.toMembers.map fun (name, value) =>
      name ++ " = " ++ toString value ++ "\n"),
    "[auth]\ndisabled = " ++ toString settings.auth.disabled ++ "\n" ++
      (if settings.auth.tokens.isEmpty then "tokens = []\n" else "")] ++
  settings.auth.tokens.map fun entry =>
    "[[auth.tokens]]\n" ++ stringLine "token" entry.token ++ stringLine "identity" entry.identity

def write (settings : Settings) : String :=
  String.intercalate "\n" settings.sections

end Settings

end PlcTags
