import PlcTags.Markup.Event

/-!
# Elements

A document is read into the tree of its elements.  An element has its own text, which
is gathered from all runs and CDATA sections between its children; text outside of the
root element does not count.
-/

namespace PlcTags.Markup

structure Element where
  name : String
  attributes : List (String × String)
  children : List Element
  text : String
  deriving Repr, Inhabited

namespace Element

def attribute? (element : Element) (key : String) : Option String :=
  element.attributes.lookup key

def child? (element : Element) (name : String) : Option Element :=
  element.children.find? (·.name == name)

def childrenNamed (element : Element) (name : String) : List Element :=
  element.children.filter (·.name == name)

end Element

/-- Why a text is no document. -/
inductive Error where
  | fault (offset : Nat) (what : Fault)
  | secondRoot (offset : Nat)
  | unclosed (name : String)
  | noRoot
  deriving DecidableEq, Repr

namespace Error

def message : Error → String
  | fault _ what => what.message
  | secondRoot _ => "more than one root element"
  | unclosed name => "document ends inside <" ++ name ++ ">"
  | noRoot => "no root element"

end Error

/-! ## Building the tree -/

/-- An element whose end has not been reached; its children stand backwards. -/
structure Frame where
  /-- The name with its namespace. -/
  fullName : List Char
  attributes : List Attribute
  children : List Element
  text : List Char
  deriving Inhabited

namespace Frame

/-- The element that a tag opens. -/
def ofTag (tag : List Char) : Except Fault Frame := do
  let attributes ← Markup.attributes tag
  return ⟨tagName tag, attributes, [], []⟩

def name (frame : Frame) : String :=
  String.ofList (localName frame.fullName)

def toElement (frame : Frame) : Element where
  name := frame.name
  attributes := frame.attributes.map fun pair =>
    (String.ofList pair.key, String.ofList pair.value)
  children := frame.children.reverse
  text := String.ofList frame.text

end Frame

/-- What has been read of a document: the open elements, the innermost first, and the
root element once it is complete. -/
structure Progress where
  stack : List Frame := []
  root : Option Element := none

namespace Progress

/-- Puts a complete element in its place; the event that completed it begins at
`offset`. -/
def attach (progress : Progress) (offset : Nat) (element : Element) : Except Error Progress :=
  match progress.stack with
  | frame :: stack =>
    .ok { progress with stack := { frame with children := element :: frame.children } :: stack }
  | [] =>
    match progress.root with
    | some _ => .error (.secondRoot offset)
    | none => .ok { progress with root := some element }

/-- Adds text to the innermost open element. -/
def addText (progress : Progress) (text : List Char) : Progress :=
  match progress.stack with
  | frame :: stack => { progress with stack := { frame with text := frame.text ++ text } :: stack }
  | [] => progress

/-- The name in an end tag: blanks may follow it, but cannot stand for it. -/
def endName (text : List Char) : List Char :=
  if text.all isSpace then text else (text.reverse.dropWhile isSpace).reverse

/-- Ends the innermost open element, which the end tag must name. -/
def close (progress : Progress) (offset : Nat) (name : List Char) : Except Error Progress :=
  match progress.stack with
  | [] => .error (.fault offset (.mismatchedEnd [] name))
  | frame :: stack =>
    let found := endName name
    if frame.fullName = found then { progress with stack }.attach offset frame.toElement
    else .error (.fault offset (.mismatchedEnd frame.fullName found))

/-- Takes up one event. -/
def step (progress : Progress) (placed : Placed) : Except Error Progress :=
  let refuse (fault : Fault) : Error := .fault placed.offset fault
  match placed.event with
  | .start tag => do
    let frame ← (Frame.ofTag tag).mapError refuse
    return { progress with stack := frame :: progress.stack }
  | .empty tag => do
    let frame ← (Frame.ofTag tag).mapError refuse
    progress.attach placed.offset frame.toElement
  | .close name => progress.close placed.offset name
  | .text run =>
    if progress.stack.isEmpty then .ok progress
    else do
      let text ← (unescape run).mapError refuse
      return progress.addText text
  | .cdata text => .ok (progress.addText text)
  | .skipped => .ok progress
  | .fault fault => .error (refuse fault)

end Progress

/-- Takes up events in order. -/
def walk : Progress → List Placed → Except Error Progress
  | progress, [] => .ok progress
  | progress, placed :: rest =>
    match progress.step placed with
    | .ok progress => walk progress rest
    | .error fault => .error fault

/-- The byte order marks in front of a text do not belong to it. -/
def withoutMarks (text : List Char) : List Char :=
  text.dropWhile fun c => c.toNat == 0xFEFF

/-- The root element of a document. -/
def parse (text : String) : Except Error Element :=
  match walk {} (events (withoutMarks text.toList)) with
  | .error fault => .error fault
  | .ok progress =>
    match progress.stack, progress.root with
    | frame :: _, _ => .error (.unclosed frame.name)
    | [], some root => .ok root
    | [], none => .error .noRoot

end PlcTags.Markup
