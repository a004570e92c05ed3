import PlcTags.Tag.Prepare

/-!
# Tags between vendors

An address is moved to another vendor through the byte-addressed image: it must have
a location there, and the other vendor an address for that location.  The rest of a
tag does not depend on the vendor.
-/

namespace PlcTags

/-- Why a tag or an address has no counterpart for a vendor. -/
inductive TranslateError where
  | unreadable (fault : Address.Error)
  | noEquivalent (address : String) (target : Vendor)
  | unknownType (vendor : Vendor) (typeName : String)
  | incompatible (address : String) (dataType : DataType)
  deriving DecidableEq, Repr

namespace TranslateError

def message : TranslateError → String
  | unreadable fault => fault.message
  | noEquivalent address target => "'" ++ address ++ "' has no " ++ target.word ++ " equivalent"
  | unknownType vendor typeName => vendor.word ++ " has no data type '" ++ typeName ++ "'"
  | incompatible address dataType => cannotHold address dataType

def code : TranslateError → Diagnostic.Code
  | unreadable _ | noEquivalent .. => .invalidAddress
  | unknownType .. => .untranslatableType
  | incompatible .. => .incompatibleAddress

/-- The diagnostic of a tag that has no counterpart. -/
def diagnostic (fault : TranslateError) (tag : String) : Diagnostic :=
  { severity := .error, code := fault.code, message := fault.message, tag := some tag }

end TranslateError

/-- The address that one vendor's text names, as another vendor's address.  For the
same vendor this is the canonical spelling; a fault repeats the text as it is. -/
def translateAddress (text : String) (source target : Vendor) :
    Except TranslateError Address :=
  match Address.parse source text with
  | .error fault => .error (.unreadable fault)
  | .ok address =>
    match address.convert? target with
    | some address => .ok address
    | none => .error (.noEquivalent text target)

/-- The tag for another vendor. -/
def Tag.translate (tag : Tag) (target : Vendor) : Except TranslateError Tag :=
  if tag.hasAddress then
    match translateAddress tag.address tag.vendor target with
    | .error fault => .error fault
    | .ok address =>
      if tag.dataType ∈ address.accepts then
        .ok { tag with vendor := target, address := address.normalized }
      else .error (.incompatible address.normalized tag.dataType)
  else .ok { tag with vendor := target }

end PlcTags
