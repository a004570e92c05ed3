import PlcTags.Settings.Basic
import PlcTags.Store.Database

/-!
# Checking credentials

A credential is looked for among the tokens of the settings first and in the table of
tokens after that.  The rest of the service only sees the identity that it belongs to.
-/

namespace PlcTags.Access

/-- Why a credential is not accepted. -/
inductive Refusal where
  | missing
  | invalid
  /-- The table of tokens could not be read. -/
  | unavailable (detail : String)
  deriving DecidableEq, Repr

def Refusal.message : Refusal → String
  | missing => "missing bearer credential"
  | invalid => "invalid bearer credential"
  | unavailable detail => "token lookup failed: " ++ detail

/-- Who everybody is while credentials are not checked. -/
def anonymous : String := "anonymous"

/-- The token in a credential: its text without the blanks at its ends, if any is left. -/
def presentedToken? (credential : Option String) : Option String :=
  (credential.map Text.trimmed).filter (· ≠ "")

/-- Who owns a token according to the settings; the first entry counts. -/
def configuredOwner? (settings : AuthSettings) (token : String) : Option String :=
  (settings.tokens.find? (·.token == token)).map (·.identity)

/-- Who owns a token according to the table. -/
def storedOwner (database : Database) (token : String) : Except Refusal String :=
  match database.tokenOwner token with
  | .ok (some identity) => .ok identity
  | .ok none => .error .invalid
  | .error (.database detail) => .error (.unavailable detail)
  | .error failure => .error (.unavailable failure.message)

/-- The identity that a credential belongs to. -/
def authenticate (settings : AuthSettings) (database : Database) (credential : Option String) :
    Except Refusal String :=
  if settings.disabled then .ok anonymous
  else
    match presentedToken? credential with
    | none => .error .missing
    | some token =>
      match configuredOwner? settings token with
      | some identity => .ok identity
      | none => storedOwner database token

end PlcTags.Access
