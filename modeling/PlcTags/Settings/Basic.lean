/-!
# Settings

What can be configured about the service, each with the value it has when nothing is
said about it.
-/

namespace PlcTags

structure LoggingSettings where
  level : String := "info"
  deriving DecidableEq, Repr

structure ServerSettings where
  bind : String := "127.0.0.1:5760"
  deriving DecidableEq, Repr

/-- Live synchronisation.  Times are in milliseconds. -/
structure SyncSettings where
  /-- The delay of an edit that asks for none. -/
  debounceMs : Nat := 400
  /-- The least delay that an edit may ask for. -/
  minDebounceMs : Nat := 50
  /-- The greatest delay that an edit may ask for. -/
  maxDebounceMs : Nat := 5000
  /-- How many messages wait for a connection at most. -/
  outboundQueue : Nat := 64
  /-- How many events are kept for those who listen. -/
  eventCapacity : Nat := 256
  /-- How long a connection without a credential has to send one. -/
  handshakeTimeoutMs : Nat := 5000
  deriving DecidableEq, Repr

/-- A token that is accepted without being stored. -/
structure TokenEntry where
  token : String
  identity : String
  deriving DecidableEq, Repr

structure AuthSettings where
  /-- Every connection is accepted. -/
  disabled : Bool := false
  tokens : List TokenEntry := []
  deriving DecidableEq, Repr

structure Settings where
  rootFolder : Option String := none
  logging : LoggingSettings := {}
  server : ServerSettings := {}
  sync : SyncSettings := {}
  auth : AuthSettings := {}
  deriving DecidableEq, Repr

/-- The delay of an edit: the one it asks for, brought between the bounds.  There is
none if the bounds are crossed. -/
def SyncSettings.debounceDelay? (settings : SyncSettings) : Option Nat → Option Nat
  | none => some settings.debounceMs
  | some asked =>
    if settings.minDebounceMs ≤ settings.maxDebounceMs then
      some (min (max asked settings.minDebounceMs) settings.maxDebounceMs)
    else none

end PlcTags
