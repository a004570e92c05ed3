import PlcTags.Access.Sha256
import PlcTags.Text.Trim

/-!
# Bearer tokens

A client proves who it is with an opaque token.  Tokens are never kept as they are:
the table of tokens maps their hashes to the identities that own them.
-/

namespace PlcTags.Access

/-! ## Presenting a token -/

/-- The token in the value of an authorization header: the word `Bearer` in any case,
a blank, and the token, which is not empty. -/
def bearerToken? (header : String) : Option String :=
  let value := Text.trim header.toList
  match value.dropWhile (· != ' ') with
  | [] => none
  | _ :: rest =>
    let scheme := (String.ofList (value.takeWhile (· != ' '))).toLower
    let token := Text.trim rest
    if scheme == "bearer" && !token.isEmpty then some (String.ofList token) else none

/-! ## The table of tokens -/

/-- The hash under which a token is kept. -/
def tokenHash (token : String) : String :=
  Sha256.ofText token

/-- The identities that own tokens, by the hashes of the tokens. -/
structure TokenTable where
  entries : List (String × String) := []
  deriving Repr

namespace TokenTable

/-- Who owns a token. -/
def owner? (table : TokenTable) (token : String) : Option String :=
  table.entries.lookup (tokenHash token)

/-- Gives a token to an identity, whoever owned it before. -/
def assign (table : TokenTable) (token identity : String) : TokenTable :=
  let hash := tokenHash token
  ⟨(hash, identity) :: table.entries.filter (·.1 != hash)⟩

def size (table : TokenTable) : Nat :=
  table.entries.length

theorem owner?_assign_self (table : TokenTable) (token identity : String) :
    (table.assign token identity).owner? token = some identity := by
  simp [owner?, assign]

end TokenTable

/-! ## The first token -/

/-- The letters and digits that a generated token is made of. -/
def tokenAlphabet : List Char :=
  "ABCDEFGHIJKLMNOPQRSTUVWXYZabcdefghijklmnopqrstuvwxyz0123456789".toList

/-- How long a generated token is. -/
def generatedLength : Nat := 40

/-- The token that a sequence of random draws makes. -/
def generatedToken (draws : Nat → Nat) : String :=
  String.ofList ((List.range generatedLength).map fun place =>
    tokenAlphabet.getD (draws place % tokenAlphabet.length) 'A')

/-- Gives a generated token to the administrator if nobody owns a token yet. -/
def TokenTable.withFirstToken (table : TokenTable) (draws : Nat → Nat) :
    Option (String × TokenTable) :=
  if table.size = 0 then
    let token := generatedToken draws
    some (token, table.assign token "admin")
  else none

end PlcTags.Access
