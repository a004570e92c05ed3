import PlcTags.Container.Entry
import PlcTags.Container.Error
import PlcTags.Markup.Node

/-!
# TIA documents

The Siemens tag table.  The attributes of a tag are elements of its `AttributeList`, and
its description is the English text of its comment.  Each object of the document has an
identifier, a number in hexadecimal, in the order in which the objects begin.
-/

namespace PlcTags.Container.Tia

open Markup (Content Element Node)

def tableName : String := "SW.Tags.PlcTagTable"

def tagName : String := "SW.Tags.PlcTag"

def culture : String := "en-US"

/-! ## Writing -/

/-- The identifier of an object. -/
def identifier (number : Nat) : String :=
  String.ofList ((Nat.toDigits 16 number).map Char.toUpper)

def leaf (name text : String) : Node :=
  .leaf name [] (.escaped text)

/-- The comment of a tag, two objects from `number` on. -/
def commentNode (number : Nat) (description : String) : Node :=
  .branch "ObjectList" []
    [.branch "MultilingualText" [("ID", identifier number), ("CompositionName", "Comment")]
      [.branch "ObjectList" []
        [.branch "MultilingualTextItem"
          [("ID", identifier (number + 1)), ("CompositionName", "Items")]
          [.branch "AttributeList" [] [leaf "Culture" culture, leaf "Text" description]]]]]

/-- A tag, the object of this number. -/
def tagNode (number : Nat) (vendor : Vendor) (tag : Tag) : Node :=
  .branch tagName [("ID", identifier number), ("CompositionName", "Tags")]
    (.branch "AttributeList" []
      ([leaf "DataTypeName" (vendor.typeName tag.dataType)] ++
        (if tag.defaultValue.isEmpty then [] else [leaf "DefaultValue" tag.defaultValue]) ++
        [leaf "LogicalAddress" (vendor.containerAddress tag.address), leaf "Name" tag.name,
          leaf "Usage" (vendor.scopeWord tag.scope)]) ::
      (if tag.description.isEmpty then [] else [commentNode (number + 1) tag.description]))

/-- How many objects a tag takes. -/
def objectCount (tag : Tag) : Nat :=
  if tag.description.isEmpty then 1 else 3

/-- The tags of a document, the first the object of this number. -/
def tagNodes (number : Nat) (vendor : Vendor) : List Tag → List Node
  | [] => []
  | tag :: tags => tagNode number vendor tag :: tagNodes (number + objectCount tag) vendor tags

def document (vendor : Vendor) (tags : List Tag) : Node :=
  .branch "Document" []
    [.empty "Engineering" [("version", "V17")],
      .branch tableName [("ID", identifier 0)]
        [.branch "AttributeList" [] [leaf "Name" "Default tag table"],
          .branch "ObjectList" [] (tagNodes 1 vendor tags)]]

def encode (vendor : Vendor) (tags : List Tag) : String :=
  Markup.renderDocument false (document vendor tags)

/-! ## Reading -/

mutual

/-- All elements with a name inside of an element, each with its path, in the order in
which they begin. -/
def descendants (name path : String) : Element → List (String × Element)
  | ⟨_, _, children, _⟩ => descendantsAt name path 1 children

/-- The same among `children`, of which the first is child number `index`. -/
def descendantsAt (name path : String) (index : Nat) : List Element → List (String × Element)
  | [] => []
  | child :: rest =>
    let childPath := path ++ "/" ++ child.name ++ "[" ++ toString index ++ "]"
    (if child.name = name then [(childPath, child)] else []) ++
      descendants name childPath child ++ descendantsAt name path (index + 1) rest

end

/-- The trimmed text of a child. -/
def childText? (element : Element) (name : String) : Option String :=
  (element.child? name).map fun child => Text.trimmed child.text

/-- The comment of a tag: in English, or else in the first language there is. -/
def commentOf? (tag : Element) : Option String := do
  let objects ← tag.child? "ObjectList"
  let text ← (objects.childrenNamed "MultilingualText").find? fun text : Element =>
    text.attribute? "CompositionName" == some "Comment"
  let objects ← text.child? "ObjectList"
  let items := (objects.childrenNamed "MultilingualTextItem").filterMap fun item : Element =>
    item.child? "AttributeList"
  let item ← (items.find? fun item => childText? item "Culture" == some culture) <|> items.head?
  childText? item "Text"

def entryOf (path : String) (tag : Element) : Except Error Entry :=
  match tag.child? "AttributeList" with
  | none => .error ⟨.element path, .incomplete "tag" "AttributeList"⟩
  | some attributes =>
    let field (name : String) : String := (childText? attributes name).getD ""
    if (field "Name").isEmpty then .error ⟨.element path, .incomplete "tag" "Name"⟩
    else .ok
      { name := field "Name"
        typeName := field "DataTypeName"
        address := field "LogicalAddress"
        scope := field "Usage"
        defaultValue := field "DefaultValue"
        description := (commentOf? tag).getD ""
        line := none }

/-- The entries of a document. -/
def entries (root : Element) : Except Error (List Entry) :=
  if root.name ≠ "Document" then
    .error ⟨.element root.name, .unexpectedRoot "<Document>"⟩
  else if (descendants tableName "Document" root).isEmpty then
    .error ⟨.element "Document", .missingElement tableName⟩
  else (descendants tagName "Document" root).mapM fun (path, tag) => entryOf path tag

end PlcTags.Container.Tia
