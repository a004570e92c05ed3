import PlcTags.Json.Reader

/-!
# Checking JSON

A check goes through the tokens of a text in front of which a certain value should stand,
and stops at the first fault: either the text is no JSON there, or another value begins
there.  What follows the value does not count.
-/

namespace PlcTags.Json

inductive Fault where
  /-- The text is no JSON. -/
  | notJson
  /-- There is another value than the one that should be there. -/
  | mismatch
  deriving DecidableEq, Repr

/-- The fault of tokens that do not begin with the value that should be there. -/
def faultAt : List Token → Fault
  | .scalar _ :: _ | .openArray :: _ | .openObject :: _ => .mismatch
  | _ => .notJson

/-- What is left behind the value, if it is the one that should be there. -/
abbrev Check := List Token → Except Fault (List Token)

namespace Check

/-- Any value. -/
def anything : Check := fun tokens =>
  match valueFrom? atStart tokens with
  | some (_, rest) => .ok rest
  | none => .error .notJson

def text : Check
  | .scalar (.string _) :: rest => .ok rest
  | tokens => .error (faultAt tokens)

def flag : Check
  | .scalar (.bool _) :: rest => .ok rest
  | tokens => .error (faultAt tokens)

/-- A word in the place of a name, for an object that holds nothing but the word. -/
def wordAsName (isWord : String → Bool) : Check
  | .scalar (.string word) :: rest =>
    if !isWord word then .error .mismatch
    else match rest with
      | .colon :: .scalar .null :: .closeObject :: rest => .ok rest
      | .colon :: .scalar .null :: _ => .error .notJson
      | .colon :: rest => .error (faultAt rest)
      | _ => .error .notJson
  | tokens => .error (faultAt tokens)

/-- A word of a closed vocabulary.  Nothing but a string or an object is even read in its
place. -/
def word (isWord : String → Bool) : Check
  | .scalar (.string word) :: rest => if isWord word then .ok rest else .error .mismatch
  | .openObject :: rest => wordAsName isWord rest
  | _ => .error .notJson

/-! ## Records -/

structure Field where
  name : String
  isRequired : Bool := true
  check : Check

/-- The check of the value of a name.  Other names may have any value. -/
def ofName (fields : List Field) (name : String) : Check :=
  ((fields.find? (·.name == name)).map Field.check).getD anything

/-- The fields of a record by their names, after its brace or a comma. -/
def members (fields : List Field) (seen : List String) (tokens : List Token) :
    Except Fault (List Token) :=
  match tokens with
  | .scalar (.string name) :: rest =>
    let seen' := name :: seen
    if seen.contains name && fields.any (·.name == name) then .error .mismatch
    else match rest with
      | .colon :: value =>
        match ofName fields name value with
        | .ok (.comma :: rest) =>
          if rest.length < value.length then members fields seen' rest else .error .notJson
        | .ok (.closeObject :: rest) =>
          if fields.all fun field => !field.isRequired || seen'.contains field.name then .ok rest
          else .error .mismatch
        | .ok _ => .error .notJson
        | .error fault => .error fault
      | _ => .error .notJson
  | _ => .error .notJson
  termination_by tokens.length
  decreasing_by simp only [List.length_cons]; omega

/-- The fields of a record by their places, where `comma` says that a comma must stand in
front of the next one. -/
def items (comma : Bool) : List Field → Check
  | [], .closeArray :: rest => .ok rest
  | [], _ => .error .notJson
  | field :: fields, .closeArray :: rest =>
    if (field :: fields).any Field.isRequired then .error .mismatch else .ok rest
  | field :: fields, tokens => do
    let tokens ← match comma, tokens with
      | true, .comma :: rest => .ok rest
      | true, _ => .error .notJson
      | false, tokens => .ok tokens
    items true fields (← field.check tokens)

/-- A record. -/
def record (fields : List Field) : Check
  | .openObject :: .closeObject :: rest =>
    if fields.any Field.isRequired then .error .mismatch else .ok rest
  | .openObject :: rest => members fields [] rest
  | .openArray :: rest => items false fields rest
  | tokens => .error (faultAt tokens)

end Check

end PlcTags.Json
