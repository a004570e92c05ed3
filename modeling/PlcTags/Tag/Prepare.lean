import PlcTags.Address.Any
import PlcTags.Diagnostic
import PlcTags.Dialect

/-!
# Validation of tags

Before it is stored, a tag is checked against the rules of its own vendor: its name,
its address, and whether the address can hold the type.  A valid address is brought
into its canonical spelling, and decides the category unless that is fixed.
-/

namespace PlcTags

/-- A tag after validation, with the problems that were found. -/
structure PreparedTag where
  tag : Tag
  issues : List Diagnostic
  deriving Repr

/-- Only tags without an error may be stored. -/
def PreparedTag.isAccepted (prepared : PreparedTag) : Bool :=
  !prepared.issues.any Diagnostic.isError

/-- The wording of an address that cannot hold a type. -/
def cannotHold (address : String) (dataType : DataType) : String :=
  "address '" ++ address ++ "' cannot hold a " ++ dataType.word ++ " value"

namespace Tag

def nameIssues (tag : Tag) : List Diagnostic :=
  if tag.vendor.admitsName tag.name then []
  else
    [{ severity := .error, code := .invalidName, tag := some tag.name,
       message := "'" ++ tag.name ++ "' is not a valid " ++ tag.vendor.word ++ " tag name" }]

/-- The tag with a parsed address in its canonical spelling. -/
def withAddress (tag : Tag) (address : Address) : Tag :=
  { tag with
    address := address.normalized
    category :=
      if tag.category.isFixed then tag.category
      else Category.infer tag.scope (some address.area) }

def holdsIssues (tag : Tag) (address : Address) : List Diagnostic :=
  if tag.dataType ∈ address.accepts then []
  else
    [{ severity := .error, code := .incompatibleAddress, tag := some tag.name,
       message := cannotHold address.normalized tag.dataType }]

/-- The tag with its address checked, and the problems of the address.  A wired tag
without an address is only worth a warning: the address may be filled in later. -/
def prepareAddress (tag : Tag) : Tag × List Diagnostic :=
  if tag.hasAddress then
    match Address.parse tag.vendor tag.address with
    | .ok address => (tag.withAddress address, tag.holdsIssues address)
    | .error fault =>
      (tag, [{ severity := .error, code := .invalidAddress, tag := some tag.name,
               message := fault.message }])
  else
    ({ tag with address := "" },
      if tag.scope.isWired then
        [{ severity := .warning, code := .addressRequired, tag := some tag.name,
           message := "address required" }]
      else [])

def prepare (tag : Tag) : PreparedTag :=
  let (checked, issues) := tag.prepareAddress
  ⟨checked, tag.nameIssues ++ issues⟩

end Tag

/-- The tags of a batch that may be stored. -/
def acceptedTags (batch : List Tag) : List Tag :=
  ((batch.map Tag.prepare).filter PreparedTag.isAccepted).map PreparedTag.tag

/-- The problems of all tags of a batch, in order. -/
def batchIssues (batch : List Tag) : List Diagnostic :=
  (batch.map Tag.prepare).flatMap PreparedTag.issues

end PlcTags
