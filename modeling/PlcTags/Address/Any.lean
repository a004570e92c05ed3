import PlcTags.Address.Beckhoff
import PlcTags.Address.Rockwell
import PlcTags.Address.Siemens

/-!
# Addresses of any vendor

An address is one of the three grammars' addresses.  Each has a canonical spelling,
an area, the types it can hold and, where the byte-addressed image reaches it, a
location; a location leads to the address of another vendor.
-/

namespace PlcTags

/-- What a text in the address grammar of a vendor names. -/
inductive Address where
  | rockwell (address : Address.Rockwell)
  | siemens (address : Address.Siemens)
  | beckhoff (address : Address.Beckhoff)
  deriving DecidableEq, Repr

namespace Address

/-- Reads a text that is neither empty nor has blanks at its ends. -/
def readTrimmed : Vendor → List Char → Except Fault Address
  | .rockwell, text => rockwell <$> Rockwell.read text
  | .siemens, text => siemens <$> Siemens.read text
  | .beckhoff, text => beckhoff <$> Beckhoff.read text

/-- The element that a text names in a vendor's grammar.  Blanks around the text do
not count, and a fault repeats the text without them. -/
def parse (vendor : Vendor) (text : String) : Except Error Address :=
  let text := Text.trim text.toList
  if text.isEmpty then .error .empty
  else match readTrimmed vendor text with
    | .ok address => .ok address
    | .error fault => .error (.ofFault vendor (String.ofList text) fault)

def vendor : Address → Vendor
  | rockwell _ => .rockwell
  | siemens _ => .siemens
  | beckhoff _ => .beckhoff

/-- The canonical spelling. -/
def normalized : Address → String
  | rockwell address => String.ofList address.render
  | siemens address => String.ofList address.render
  | beckhoff address => String.ofList address.render

def area : Address → Area
  | rockwell address => address.area
  | siemens address => address.area
  | beckhoff address => address.area

/-- The types that the addressed element can hold. -/
def accepts : Address → List DataType
  | rockwell address => address.accepts
  | siemens address => address.accepts
  | beckhoff address => address.accepts

def location? : Address → Option Location
  | rockwell address => address.location?
  | siemens address => address.location?
  | beckhoff address => address.location?

/-- A vendor's address of a location of the image, where it has one. -/
def ofLocation? : Vendor → Location → Option Address
  | .rockwell, location => rockwell <$> Rockwell.ofLocation? location
  | .siemens, location => some (siemens (Siemens.ofLocation location))
  | .beckhoff, location => some (beckhoff (Beckhoff.ofLocation location))

/-- The address of the same element for another vendor; for the same vendor, the
address itself. -/
def convert? (address : Address) (target : Vendor) : Option Address :=
  if address.vendor = target then some address
  else address.location?.bind (ofLocation? target)

end Address

end PlcTags
